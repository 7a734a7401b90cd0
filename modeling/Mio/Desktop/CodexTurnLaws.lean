import Mio.Desktop.CodexToolLaws

/-!
# What a turn of Codex does

The tools of a turn have the access of its request, so that a turn that may only read starts nothing
but reads, whatever the provider asks for.

The stop signal is read between messages only. A turn in which it is not set while a tool call is
being answered starts nothing after it is set. A call that was under way goes on.
-/

namespace Mio.Desktop.CodexAppServer

open Library Library.Thread Broker CommandExecution CodexTools
open AiDispatch (TextTurnRequest TextTurnWorkspaceAccess)

/-! ## A property of a whole turn -/

/-- The answer to a tool call, up to the message with it. -/
def answerCall (env : CodexSurroundings) (params : Value) (threadId turnId : String)
    (contexts : TurnToolContexts) (answer : Value → CodexProg Unit) : CodexProg Unit := do
  let result ←
    (toolResult env.toToolSurroundings params threadId turnId contexts).mapError Empty.elim
  Thread.changes fun _ host => host.note (.answered host.cancelled)
  answer result

/-- A property that the other threads, the messages of the turn and its tool calls keep. -/
structure KeptByTurn (env : CodexSurroundings) (others : ℕ → Host → Host)
    (contexts : TurnToolContexts) (holds : Host → Prop) : Prop where
  stable : Stable others holds
  sent : ∀ message host, holds host → holds (host.note (.sent message))
  call : ∀ params threadId turnId answer, (∀ result, Keeps others holds (answer result)) →
    Keeps others holds (answerCall env params threadId turnId contexts answer)

variable {env : CodexSurroundings} {others : ℕ → Host → Host} {contexts : TurnToolContexts}
  {holds : Host → Prop}

section Turn

variable (h : KeptByTurn env others contexts holds)
include h

/-- Sending a message starts nothing. -/
theorem keeps_send (message : Value) : Keeps others holds (send env message) :=
  keeps_bind (keeps_step h.stable fun _ host hhost => ⟨h.sent message host hhost, nofun⟩)
    fun _ => keeps_require _ _

/-- The check for a stop starts nothing. -/
theorem keeps_checkCancelled : Keeps others holds checkCancelled :=
  keeps_bind (keeps_reads h.stable _) fun _ => keeps_require _ _

/-- Giving up after the last poll starts nothing. -/
theorem keeps_timedOut {α : Type} : Keeps others holds (timedOut : CodexProg α) :=
  keeps_bind (keeps_checkCancelled h) fun _ => keeps_exit _

/-- A poll starts nothing. -/
theorem keeps_poll : Keeps others holds (poll env) := by
  refine keeps_bind (keeps_checkCancelled h) fun _ => keeps_bind (keeps_reads h.stable _) ?_
  rintro (message | _ | _ | _ | _)
  · exact keeps_pure _
  · exact keeps_exit _
  · exact keeps_exit _
  · exact keeps_exit _
  · exact keeps_pure _

/-- Declining a request starts nothing. -/
theorem keeps_declineServerRequest (message : Value) :
    Keeps others holds (declineServerRequest env message) :=
  keeps_bind (keeps_ofOption _ _) fun _ => keeps_bind (keeps_ofOption _ _) fun _ => keeps_send h _

/-- Waiting for a response starts nothing. -/
theorem keeps_waitForResponse (requestId polls : ℕ) :
    Keeps others holds (waitForResponse env requestId polls) := by
  induction polls with
  | zero => exact keeps_timedOut h
  | succ polls ih =>
    refine keeps_bind (keeps_poll h) fun message => ?_
    cases message with
    | none => exact ih
    | some message =>
      refine keeps_ite (fun _ => ?_) fun _ => keeps_ite (fun _ => ?_) fun _ => ih
      · exact keeps_bind (keeps_declineServerRequest h _) fun _ => ih
      · exact keeps_ite (fun _ => keeps_exit _) fun _ => keeps_ofOption _ _

/-- Answering a request starts what the tools of the turn start. -/
theorem keeps_respondToTurnServerRequest (message : Value) (threadId turnId : String) :
    Keeps others holds (respondToTurnServerRequest env message threadId turnId contexts) := by
  refine keeps_ite (fun _ => keeps_declineServerRequest h _) fun _ => ?_
  refine keeps_bind (keeps_ofOption _ _) fun id => keeps_bind (keeps_ofOption _ _) fun params => ?_
  exact h.call params threadId turnId (fun result =>
    send env (.object [("id", id), ("result", result)]))
    fun _ => keeps_send h _

/-- Waiting for the turn starts what its tools start, by induction on the polls. -/
theorem keeps_waitForTurn (threadId turnId : String) (polls : ℕ) (progress : TurnProgress) :
    Keeps others holds (waitForTurn env threadId turnId contexts polls progress) := by
  induction polls generalizing progress with
  | zero => exact keeps_timedOut h
  | succ polls ih =>
    refine keeps_bind (keeps_poll h) fun message => ?_
    cases message with
    | none => exact ih progress
    | some message =>
      refine keeps_ite (fun _ => ?_) fun _ => ?_
      · exact keeps_bind (keeps_respondToTurnServerRequest h _ _ _) fun _ => ih progress
      · split
        · exact keeps_ofExcept _
        · exact ih _

/-- A request before the turn starts nothing. -/
theorem keeps_preflightRequest (requestId : ℕ) (message : Value) :
    Keeps others holds (preflightRequest env requestId message) :=
  keeps_bind (keeps_mapError (keeps_send h _)) fun _ => keeps_bind (keeps_reads h.stable _) fun _ =>
    keeps_mapError (keeps_waitForResponse h _ _)

/-- Opening the thread starts nothing. -/
theorem keeps_openThread (request : TextTurnRequest) :
    Keeps others holds (openThread env request contexts) := by
  refine keeps_bind (keeps_reads h.stable _) fun runtimeRoot => ?_
  refine keeps_bind (keeps_ofOption _ _) fun runtimeRoot => ?_
  refine keeps_bind (keeps_require _ _) fun _ =>
    keeps_bind (keeps_reads h.stable _) fun spawned => ?_
  refine keeps_bind (keeps_require _ _) fun _ => ?_
  refine keeps_bind (keeps_preflightRequest h _ _) fun _ => ?_
  refine keeps_bind (keeps_mapError (keeps_send h _)) fun _ => ?_
  refine keeps_bind (keeps_preflightRequest h _ _) fun profiles => ?_
  refine keeps_bind (keeps_mapError (keeps_ofExcept _)) fun _ => ?_
  extract_lets afterChecks
  have hopen : Keeps others holds (afterChecks ()) := by
    refine keeps_bind (keeps_preflightRequest h _ _) fun thread => ?_
    refine keeps_bind (keeps_ofOption _ _) fun threadId => ?_
    exact keeps_bind (keeps_require _ _) fun _ => keeps_pure _
  refine keeps_ite (fun _ => ?_) fun _ => hopen
  refine keeps_bind (keeps_mapError (keeps_send h _)) fun _ => ?_
  refine keeps_bind (keeps_reads h.stable _) fun polls => ?_
  refine keeps_bind (keeps_mapError (keeps_waitForResponse h _ _)) fun config => ?_
  exact keeps_bind (keeps_mapError (keeps_ofExcept _)) fun _ => hopen

/-- Storing the images of a turn starts nothing. -/
theorem keeps_ingestGeneratedImages (paths : List String) :
    Keeps others holds (ingestGeneratedImages env paths) := by
  induction paths with
  | nil => exact keeps_pure _
  | cons path paths ih =>
    refine keeps_bind (keeps_reads h.stable _) fun image =>
      keeps_bind (keeps_ofOption _ _) fun _ => ?_
    exact keeps_bind ih fun images => keeps_pure _

/-- The turn in its thread starts what its tools start. -/
theorem keeps_runThread (request : TextTurnRequest) (runtimeRoot threadId : String) :
    Keeps others holds (runThread env request contexts runtimeRoot threadId) := by
  refine keeps_bind (keeps_send h _) fun _ => keeps_bind (keeps_reads h.stable _) fun polls => ?_
  refine keeps_bind (keeps_waitForResponse h _ _) fun turn => ?_
  refine keeps_bind (keeps_ofOption _ _) fun turnId =>
    keeps_bind (keeps_reads h.stable _) fun polls => ?_
  refine keeps_bind (keeps_waitForTurn h _ _ _ _) fun turn =>
    keeps_bind (keeps_require _ _) fun _ => ?_
  exact keeps_bind (keeps_ingestGeneratedImages h _) fun images => keeps_pure _

end Turn

/-! ## The tools of a turn -/

/-- The tools have the access of the request. -/
structure ToolsOf (request : TextTurnRequest) (contexts : TurnToolContexts) : Prop where
  workspace : ∀ context, contexts.workspace = some context →
    ∃ workspace, request.workspace = some workspace ∧ context.access = workspace.access
  command : ∀ context, contexts.command = some context →
    ∃ workspace, request.workspace = some workspace ∧
      context.turn.access = commandAccess workspace.access

/-- The context of the commands has the access of the request's workspace. -/
theorem gives_contextForTurn (request : TextTurnRequest) :
    (contextForTurn env.toSurroundings request).Gives
      (fun turn => ∃ workspace, request.workspace = some workspace ∧
        turn.access = commandAccess workspace.access) fun _ => True := by
  refine gives_then (gives_anyway _) fun roomId =>
    gives_bind gives_ofOption fun requested hrequested => ?_
  refine gives_then (gives_anyway _) fun found =>
    gives_then (gives_anyway _) fun (root, workspace) => ?_
  refine gives_then (gives_anyway _) fun _ => gives_then (gives_anyway _) fun roomContext => ?_
  exact gives_then (gives_anyway _) fun roomContext => gives_pure ⟨requested, hrequested, rfl⟩

/-- Making the context of the commands starts nothing. -/
theorem keeps_contextForTurn (hstable : Stable others holds) (request : TextTurnRequest) :
    Keeps others holds (contextForTurn env.toSurroundings request) := by
  refine keeps_bind (keeps_ofOption _ _) fun roomId =>
    keeps_bind (keeps_ofOption _ _) fun requested => ?_
  refine keeps_bind (keeps_reads hstable _) fun found => ?_
  refine keeps_bind (keeps_ofOption _ _) fun (root, workspace) => ?_
  refine keeps_bind (keeps_require _ _) fun _ =>
    keeps_bind (keeps_reads hstable _) fun roomContext => ?_
  exact keeps_bind (keeps_ofOption _ _) fun roomContext => keeps_pure _

/-- Making the tools of a turn starts nothing. -/
theorem keeps_toolContexts (hstable : Stable others holds) (request : TextTurnRequest) :
    Keeps others holds (toolContexts env request) := by
  unfold toolContexts
  extract_lets afterWorkspace
  have hcommand (workspace : Option WorkspaceToolContext) :
      Keeps others holds (afterWorkspace workspace) := by
    refine keeps_ite (fun _ => ?_) fun _ => keeps_pure _
    refine keeps_bind (keeps_attempt (keeps_contextForTurn hstable request)) fun turn => ?_
    cases turn <;> exact keeps_pure _
  cases request.workspace with
  | none => exact keeps_bind (keeps_pure _) hcommand
  | some workspace =>
    refine keeps_bind (keeps_reads hstable _) fun opens => ?_
    exact keeps_bind (keeps_require _ _) fun _ => keeps_bind (keeps_pure _) hcommand

/-- The tools that are made have the access of the request. -/
theorem gives_toolContexts (request : TextTurnRequest) :
    (toolContexts env request).Gives (ToolsOf request) fun _ => True := by
  unfold toolContexts
  extract_lets afterWorkspace
  have hcommand (workspace : Option WorkspaceToolContext)
      (hworkspace : ∀ context, workspace = some context →
        ∃ workspace, request.workspace = some workspace ∧ context.access = workspace.access) :
      (afterWorkspace workspace).Gives (ToolsOf request) fun _ => True := by
    refine gives_ite (fun _ => ?_) fun _ => gives_pure ⟨hworkspace, nofun⟩
    refine gives_bind (gives_attempt (gives_contextForTurn request)) fun turn hturn => ?_
    cases turn with
    | error e => exact gives_pure ⟨hworkspace, nofun⟩
    | ok turn =>
      refine gives_pure ⟨hworkspace, ?_⟩
      rintro _ ⟨⟩
      exact hturn
  cases hrequest : request.workspace with
  | none => exact hcommand none nofun
  | some workspace =>
    refine gives_then (gives_anyway _) fun opens => gives_then (gives_anyway _) fun _ => ?_
    refine hcommand (some _) ?_
    rintro _ ⟨⟩
    exact ⟨workspace, hrequest, rfl⟩

/-- The tools of the turn are those of its request. -/
theorem keeps_run (request : TextTurnRequest) (hstable : Stable others holds)
    (h : ∀ contexts, ToolsOf request contexts → KeptByTurn env others contexts holds) :
    Keeps others holds (run env request) := by
  refine keeps_bind ?_ fun _ => ?_
  · exact keeps_bind (keeps_reads hstable _) fun _ => keeps_require _ _
  refine keeps_bind_of (keeps_toolContexts hstable request) (gives_toolContexts request)
    fun contexts hcontexts => ?_
  refine keeps_bind (keeps_openThread (h contexts hcontexts) request)
    fun (runtimeRoot, threadId) => ?_
  exact keeps_runThread (h contexts hcontexts) request runtimeRoot threadId

/-! ## Turns that only read -/

/-- The effect has started, whether the turn was stopped then or not. -/
def Started (effect : TurnEffect) (host : Host) : Prop :=
  ∃ isCancelled, .started effect isCancelled ∈ host.events

/-- Every effect that has started is a read. -/
def OnlyReads (host : Host) : Prop := ∀ effect, Started effect host → effect.isRead = true

/-- Only the events matter for what has started. -/
theorem onlyReads_of_events {host host' : Host} (h : OnlyReads host)
    (hevents : host'.events = host.events) : OnlyReads host' := by
  unfold OnlyReads Started
  rw [hevents]
  exact h

/-- An event that starts no write keeps it so. -/
theorem onlyReads_note {event : HostEvent} {host : Host} (h : OnlyReads host)
    (hevent : ∀ effect isCancelled, event = .started effect isCancelled → effect.isRead = true) :
    OnlyReads (host.note event) := by
  rintro effect ⟨isCancelled, hmem⟩
  rcases List.mem_cons.mp hmem with rfl | hmem
  · exact hevent effect isCancelled rfl
  · exact h effect ⟨isCancelled, hmem⟩

/-- The other threads start nothing. -/
theorem onlyReads_stable (steps : ℕ → List OtherStep) :
    Stable (CommandExecution.others steps) OnlyReads :=
  stable_others fun step host h => by
    cases step <;> exact onlyReads_of_events h rfl

/-- Reads may start, and nothing else. -/
theorem onlyReads_keptBy (steps : ℕ → List OtherStep) :
    KeptBy (CommandExecution.others steps) (fun effect => effect.isRead = true) OnlyReads where
  stable := onlyReads_stable steps
  start effect host hread h := onlyReads_note h fun _ _ hevent => by cases hevent; exact hread

/-- A turn that may read its workspace, and no more, starts nothing but reads. -/
theorem run_readOnly (env : CodexSurroundings) (steps : ℕ → List OtherStep)
    (request : TextTurnRequest) (now : Instant Host) (hnow : now.state.events = [])
    (haccess : ∀ workspace, request.workspace = some workspace → workspace.access = .readOnly)
    (effect : TurnEffect)
    (hstarted : Started effect (run env request (CommandExecution.others steps) now).2.state) :
    effect.isRead = true := by
  -- At the start nothing was done.
  have hinitial : OnlyReads now.state := by
    rintro effect ⟨isCancelled, hmem⟩
    rw [hnow] at hmem
    cases hmem
  have hstable := onlyReads_stable steps
  have hkept : Keeps (CommandExecution.others steps) OnlyReads (run env request) := by
    refine keeps_run request hstable fun contexts hcontexts => ?_
    -- Without write access to the workspace, neither files nor commands are permitted.
    have hfiles (context : WorkspaceToolContext) (hcontext : contexts.workspace = some context) :
        context.access ≠ .readWrite := by
      obtain ⟨workspace, hworkspace, hsame⟩ := hcontexts.workspace context hcontext
      rw [hsame, haccess workspace hworkspace]
      nofun
    have hcommands (context : CommandToolContext) (hcontext : contexts.command = some context) :
        context.turn.access ≠ .readWrite := by
      obtain ⟨workspace, hworkspace, hsame⟩ := hcontexts.command context hcontext
      rw [hsame, haccess workspace hworkspace]
      nofun
    have hpermits : Permits contexts fun effect => effect.isRead = true :=
      ⟨fun _ hread => hread,
        fun context hcontext hwritable => absurd hwritable (hfiles context hcontext),
        fun context hcontext hwritable => absurd hwritable (hcommands context hcontext)⟩
    refine ⟨hstable, fun message host h => onlyReads_note h nofun, ?_⟩
    intro params threadId turnId answer hanswer
    refine keeps_bind (keeps_mapError ?_) fun result => ?_
    · have hkept := onlyReads_keptBy steps
      -- The tools are called with what the contexts permit, and the answers only send messages.
      refine keeps_toolResult hkept hpermits (fun context hcontext _ _ _ => ?_) _ _ _
      exact keeps_installNpmPackage hkept (fun _ _ h => onlyReads_of_events h rfl) context _ _ _
        fun hwritable => absurd hwritable (hcommands context hcontext)
    · exact keeps_bind (keeps_changes hstable fun _ host h => onlyReads_note h nofun) fun _ =>
        hanswer result
  exact hkept.run hinitial effect hstarted

/-! ## Turns that are stopped -/

/-- Something has started in a turn that was stopped then. -/
def StartedLate (host : Host) : Prop := ∃ effect, .started effect true ∈ host.events

/-- A tool call was done in a turn that was stopped then. -/
def AnsweredLate (host : Host) : Prop := .answered true ∈ host.events

/-- What has started late was started by a call that was answered late. -/
def LateIsAnswered (host : Host) : Prop := StartedLate host → AnsweredLate host

/-- The same during a call, which is answered late if the turn is stopped now. -/
def LateIsKnown (host : Host) : Prop :=
  StartedLate host → AnsweredLate host ∨ host.cancelled = true

/-- What starts after the stop starts in a turn that is stopped now. -/
theorem lateIsKnown_start (effect : TurnEffect) {host : Host} (h : LateIsKnown host) :
    LateIsKnown (host.start effect) := by
  rintro ⟨late, hmem⟩
  rcases List.mem_cons.mp hmem with heq | hmem
  · injection heq with _ hcancelled
    exact .inr hcancelled.symm
  · exact (h ⟨late, hmem⟩).imp_left (List.mem_cons_of_mem _)

/-- The answer of a call notes whether the turn was stopped. -/
theorem lateIsAnswered_answered {host : Host} (h : LateIsKnown host) :
    LateIsAnswered (host.note (.answered host.cancelled)) := by
  rintro ⟨late, hmem⟩
  rcases List.mem_cons.mp hmem with heq | hmem
  · cases heq
  · rcases h ⟨late, hmem⟩ with hanswered | hcancelled
    · exact List.mem_cons_of_mem _ hanswered
    · rw [hcancelled]
      exact List.mem_cons_self

/-- Sending a message changes nothing about it. -/
theorem lateIsAnswered_sent (message : Value) {host : Host} (h : LateIsAnswered host) :
    LateIsAnswered (host.note (.sent message)) := by
  rintro ⟨late, hmem⟩
  rcases List.mem_cons.mp hmem with heq | hmem
  · cases heq
  · exact List.mem_cons_of_mem _ (h ⟨late, hmem⟩)

/-- During a call everything may start. -/
theorem lateIsKnown_keptBy (steps : ℕ → List OtherStep) :
    KeptBy (CommandExecution.others steps) (fun _ => True) LateIsKnown where
  stable := stable_others fun step host h => by
    cases step with
    | registry action => exact h
    | stop => exact fun _ => .inr rfl
  start effect _ _ h := lateIsKnown_start effect h

/-- The other threads start and answer nothing. -/
theorem lateIsAnswered_stable (steps : ℕ → List OtherStep) :
    Stable (CommandExecution.others steps) LateIsAnswered :=
  stable_others fun step _ h => by cases step <;> exact h

/-- Nothing starts in a turn that is stopped, unless it is stopped while a tool call is answered. -/
theorem run_stopped (env : CodexSurroundings) (steps : ℕ → List OtherStep)
    (request : TextTurnRequest) (now : Instant Host) (hnow : now.state.events = [])
    (hcalls : ¬AnsweredLate (run env request (CommandExecution.others steps) now).2.state) :
    ¬StartedLate (run env request (CommandExecution.others steps) now).2.state := by
  have hinitial : LateIsAnswered now.state := by
    rintro ⟨effect, hmem⟩
    rw [hnow] at hmem
    cases hmem
  have hstable := lateIsAnswered_stable steps
  have hkept : Keeps (CommandExecution.others steps) LateIsAnswered (run env request) := by
    refine keeps_run request hstable fun contexts _ => ?_
    refine ⟨hstable, fun message _ h => lateIsAnswered_sent message h, ?_⟩
    intro params threadId turnId answer hanswer now hnow
    have hpermits : Permits contexts fun _ => True :=
      ⟨fun _ _ => trivial, fun _ _ _ _ _ => trivial, fun _ _ _ _ _ => trivial⟩
    have hkept := lateIsKnown_keptBy steps
    have hcall : Keeps _ LateIsKnown
        (toolResult env.toToolSurroundings params threadId turnId contexts) :=
      keeps_toolResult hkept hpermits (fun context _ _ _ _ =>
        keeps_installNpmPackage hkept (fun _ _ h => h) context _ _ _ fun _ _ =>
          trivial) params threadId turnId
    unfold answerCall
    rw [wp_bind, wp_mapError]
    refine wp_mono (hcall now fun hlate => .inl (hnow hlate)) (fun result now hknown => ?_) nofun
      fun _ h => h
    rw [wp_bind, wp_changes]
    exact hanswer result _ (hstable _ _ (lateIsAnswered_answered hknown))
  exact fun hlate => hcalls (hkept.run hinitial hlate)

/-! ## A turn with one tool call -/

instance (host : Host) : Decidable (StartedLate host) :=
  decidable_of_iff
    (host.events.any (fun event => match event with
      | .started _ true => true
      | _ => false) = true) <| by
    rw [List.any_eq_true]
    constructor
    · rintro ⟨event, hmem, hevent⟩
      split at hevent
      · exact ⟨_, hmem⟩
      · cases hevent
    · rintro ⟨effect, hmem⟩
      exact ⟨_, hmem, rfl⟩

instance (host : Host) : Decidable (AnsweredLate host) :=
  decidable_of_iff
    (host.events.any (fun event => match event with
      | .answered true => true
      | _ => false) = true) <| by
    rw [List.any_eq_true]
    constructor
    · rintro ⟨event, hmem, hevent⟩
      split at hevent
      · exact hmem
      · cases hevent
    · exact fun hmem => ⟨_, hmem, rfl⟩

namespace Sample

/-- A workspace on Windows. -/
def workspace : RoomWorkspace.AvailableRoomWorkspace := ⟨.windows 1 2⟩

/-- A response of the server. -/
def response (id : String) (result : Value) : Value := .object
    [("id", .number id), ("result", result)]

/-- The messages of a turn up to its tool call. -/
def messages (tool : String) (arguments : List (String × Value)) : List Value :=
  [response "1" .null,
    response "2" (.object [("data", .array
      [.object [("id", .string ":read-only"), ("allowed", .bool true)]])]),
    response "5" (.object [("config", .object
      [("windows", .object [("sandbox", .string "elevated")])])]),
    response "3" (.object [("thread", .object [("id", .string "thread")])]),
    response "4" (.object [("turn", .object [("id", .string "turn")])]),
    .object [("id", .number "9"), ("method", .string "item/tool/call"), ("params", .object
      [("threadId", .string "thread"), ("turnId", .string "turn"), ("callId", .string "call"),
        ("namespace", .string commandToolNamespace), ("tool", .string tool),
        ("arguments", .object arguments)])]]

/-- The request to install `left-pad`, and its JSON. -/
def installRequest : WireNpmPackageInstallRequest × Bytes :=
  ({ version := 1, operation := .npmPackageInstall, workingDirectory := "."
     packageName := "left-pad", exactVersion := "1.0.0", access := .readWrite },
    asBytes (Json.object [("version", "1"), ("operation", Json.string "npm_package_install"),
      ("working_directory", Json.string "."), ("package_name", Json.string "left-pad"),
      ("exact_version", Json.string "1.0.0"), ("access", Json.string "read_write")]))

/-- The JSON of that request, and a version that is read as it is written. -/
def codec : HelperCodec :=
  ⟨.table [], .table [installRequest], fun text => some ⟨text, ""⟩⟩

/-- Everything is there. Each message is there for a while. -/
def surroundings (tool : String) (arguments : List (String × Value)) : CodexSurroundings :=
  { emptySurroundings with
    codec := codec
    helper := some "helper"
    toolchain := fun _ => some ⟨none, some "node", some "npm"⟩
    revalidates := fun _ _ => true
    availableWorkspace := fun _ _ => some ("root", workspace)
    boundary := fun _ _ => true
    existingFile := fun _ _ _ => true
    ownsDirectory := fun _ _ => some true
    preparesLaunch := fun _ _ => true
    execute := fun _ _ => some ⟨true, "exited", some 0, [], []⟩
    rounds := fun _ => 2
    gitStatus := fun _ _ => .ok "clean"
    received := fun moment => match (messages tool arguments)[moment / 12]? with
      | some message => .message message
      | none => .nothing
    writes := fun _ => true
    polls := fun _ => 15
    opensWorkspace := fun _ _ => true
    hasCommands := true
    runtimeRoot := fun _ => some "runtime"
    spawns := fun _ => true }

/-- A turn that asks for an install, with the access. -/
def request (access : TextTurnWorkspaceAccess) : TextTurnRequest where
  dispatchId := "dispatch"
  prompt := "install left-pad"
  model := none
  roomId := some "room"
  workspace := some ⟨"root", access⟩
  continuity := none

/-- A session of the room is open. -/
def start : Instant Host where
  moment := 0
  state :=
    { actions := [.beginRoomSession 0 "room" workspace, .advance 0 ⟨none, false⟩]
      cancelled := false
      events := [] }

/-- The owner allows the request once. -/
def allow : OtherStep := .registry (.resolveForRoom "room" "mio-command-request-7-1" .allowOnce)

/-- A server that calls the install tool. -/
def installing : CodexSurroundings :=
  surroundings commandInstallNpmPackageTool [("directory", .string "."),
    ("packageName", .string "left-pad"), ("exactVersion", .string "1.0.0")]

/-- The owner allows the install, and the turn is stopped once that is answered. -/
def stoppedLater (moment : ℕ) : List OtherStep :=
  if moment = 77 then [allow] else if moment = 99 then [.stop] else []

/-- The turn is stopped while the install waits for consent, which is given after that. -/
def stoppedFirst (moment : ℕ) : List OtherStep := if moment = 77 then [.stop, allow] else []

/-- Whether the event starts the Git status of the root. -/
def isGitStatus : HostEvent → Bool
  | .started (.gitStatus root) _ => root == "root"
  | _ => false

/-- It has started when one of the events says so. -/
theorem started_gitStatus {host : Host} (h : host.events.any isGitStatus = true) :
    Started (.gitStatus "root") host := by
  obtain ⟨event, hmem, hevent⟩ := List.any_eq_true.mp h
  unfold isGitStatus at hevent
  split at hevent
  · obtain rfl := eq_of_beq hevent
    exact ⟨_, hmem⟩
  · cases hevent

/-- A server that calls the Git status tool. -/
def reading : CodexSurroundings := surroundings commandGitStatusTool []

/-- A read-only turn starts the Git status, which is a read. -/
theorem run_readOnly_gitStatus :
    Started (.gitStatus "root")
        (run reading (request .readOnly) (CommandExecution.others fun _ => []) start).2.state ∧
      (TurnEffect.gitStatus "root").isRead = true := by
  have hstarted : Started (.gitStatus "root")
      (run reading (request .readOnly) (CommandExecution.others fun _ => []) start).2.state :=
    started_gitStatus (by decide +kernel)
  exact ⟨hstarted, run_readOnly reading (fun _ => []) (request .readOnly) start rfl
    (by rintro _ ⟨⟩; rfl) (.gitStatus "root") hstarted⟩

/-- A turn that is stopped after the install was answered starts nothing late. -/
theorem run_stopped_later :
    ¬StartedLate (run installing (request .readWrite)
      (CommandExecution.others stoppedLater) start).2.state :=
  run_stopped installing stoppedLater (request .readWrite) start rfl (by decide +kernel)

/-- A turn starts an install after it is stopped. -/
theorem install_after_stop :
    ¬∀ (env : CodexSurroundings) (steps : ℕ → List OtherStep) (request : TextTurnRequest)
      (now : Instant Host), now.state.events = [] →
        ¬StartedLate (run env request (CommandExecution.others steps) now).2.state := by
  intro h
  exact h installing stoppedFirst (request .readWrite) start rfl (by decide +kernel)

end Sample

end Mio.Desktop.CodexAppServer
