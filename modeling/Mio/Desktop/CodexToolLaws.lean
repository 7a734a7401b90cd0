import Mio.Desktop.CodexAppServer

/-!
# What the tools of a turn do

A property of what a turn shares with the other threads is kept by a whole turn if the others keep
it, the actions on the consent registry keep it, and every effect keeps it that the turn can start.
Which effects these are depends on the access of the turn alone: the arguments of a tool call do not
matter.
-/

namespace Mio.Desktop.CodexTools

open Library Library.Thread Broker CommandExecution

/-- A property that the other threads keep, and the effects that are permitted. -/
structure KeptBy (others : ℕ → Host → Host) (permitted : TurnEffect → Prop) (holds : Host → Prop) :
    Prop where
  stable : Stable others holds
  start : ∀ effect host, permitted effect → holds host → holds (host.start effect)

/-- The effect launches an install. -/
def launchesInstall : TurnEffect → Bool
  | .launched launch _ => launch.kind == .npmPackageInstall
  | _ => false

/-- What a turn with the tools can start, apart from the launch of an install: it can read, and a
tool whose context can be written can do everything. -/
structure Permits (contexts : TurnToolContexts) (permitted : TurnEffect → Prop) : Prop where
  reads : ∀ effect, effect.isRead = true → permitted effect
  files : ∀ context, contexts.workspace = some context → context.access = .readWrite →
    ∀ effect, launchesInstall effect = false → permitted effect
  commands : ∀ context, contexts.command = some context → context.turn.access = .readWrite →
    ∀ effect, launchesInstall effect = false → permitted effect

variable {others : ℕ → Host → Host} {permitted : TurnEffect → Prop} {holds : Host → Prop}

section Commands

variable {env : Surroundings} (h : KeptBy others permitted holds)
include h

/-! ## Preparing and executing -/

/-- A check keeps the property. -/
theorem keeps_check {ε : Type} (e : ε) (f : ℕ → Bool) : Keeps others holds (check e f) :=
  keeps_bind (keeps_reads h.stable _) fun _ => keeps_require e _

/-- A read keeps what its continuation keeps for every value. -/
theorem keeps_read {ε α β : Type} {f : ℕ → Host → α} {next : α → Thread Host ε β}
    (hnext : ∀ a, Keeps others holds (next a)) : Keeps others holds (reads f >>= next) :=
  keeps_bind (keeps_reads h.stable f) hnext

/-- Looking at the workspace again starts nothing. -/
theorem keeps_revalidateTurnWorkspace (context : DesktopCommandTurnContext) :
    Keeps others holds (revalidateTurnWorkspace env context) := by
  refine keeps_read h fun found => keeps_bind (keeps_ofOption _ _) fun (root, workspace) => ?_
  refine keeps_bind (keeps_require _ _) fun _ => keeps_read h fun active => ?_
  exact keeps_bind (keeps_require _ _) fun _ => keeps_pure root

/-- Resolving the directory of a command starts nothing. -/
theorem keeps_executionDirectoryRoot {ε : Type} (e : ε) (workspaceRoot relative : String) :
    Keeps others holds (executionDirectoryRoot env e workspaceRoot relative) :=
  keeps_read h fun (_, _) => keeps_bind (keeps_ofOption _ _) fun _ => keeps_pure _

/-- The check of the owner of a directory starts nothing. -/
theorem keeps_requireCurrentUserOwner (path : String) :
    Keeps others holds (requireCurrentUserOwner env path) :=
  keeps_read h fun _ => keeps_bind (keeps_ofOption _ _) fun _ => keeps_require _ _

/-- The second check of the owner starts nothing. -/
theorem keeps_revalidateCurrentUserOwner (path : String) :
    Keeps others holds (revalidateCurrentUserOwner env path) :=
  keeps_read h fun _ => keeps_bind (keeps_ofOption _ _) fun _ => keeps_require _ _

/-- The check of the npm runtime starts nothing. -/
theorem keeps_checkNpmRuntime {ε : Type} (e : ε) (npmRuntime : Option String) :
    Keeps others holds (checkNpmRuntime env e npmRuntime) := by
  cases npmRuntime with
  | none => exact keeps_pure ()
  | some path => exact keeps_check h e _

/-- A launch is prepared when that is permitted. -/
theorem keeps_prepareLaunch {ε : Type} (e : ε) (launch : CommandLaunch)
    (hpermitted : permitted (.prepared launch)) :
    Keeps others holds (prepareLaunch env e launch) :=
  keeps_bind (keeps_step h.stable fun _ host hhost => ⟨h.start _ host hpermitted hhost, nofun⟩)
    fun _ => keeps_require e _

/-- Finding the directory of a baseline command starts nothing. -/
theorem keeps_baselineDirectory (workspaceRoot workingDirectory : String)
    (command : BaselineCommand) :
    Keeps others holds (baselineDirectory env workspaceRoot workingDirectory command) := by
  unfold baselineDirectory
  refine keeps_ite (fun _ => ?_) fun _ => keeps_pure _
  refine keeps_bind (keeps_check h _ _) fun _ => ?_
  refine keeps_bind (keeps_executionDirectoryRoot h _ _ _) fun (_, directory) => ?_
  exact keeps_bind (keeps_check h _ _) fun _ => keeps_pure _

omit h in
/-- Looking a tool up starts nothing. -/
theorem keeps_toolOf (toolchain : DesktopCommandToolchain) (tool : RegisteredTool) :
    Keeps others holds (toolOf toolchain tool) := by
  cases tool with
  | git | node => exact keeps_bind (keeps_ofOption _ _) fun _ => keeps_pure _
  | npm =>
    exact keeps_bind (keeps_ofOption _ _) fun _ =>
      keeps_bind (keeps_ofOption _ _) fun _ => keeps_pure _
  | cargo => exact keeps_exit _

/-- The commands that write are planned for a writable workspace only, so that what is prepared for
another one need not be permitted. -/
theorem keeps_prepareBaseline (context : DesktopCommandTurnContext) (workingDirectory : String)
    {command : BaselineCommand} (hwrites : command.writesWorkspace = true)
    (hpermitted : context.access = .readWrite →
      ∀ effect, launchesInstall effect = false → permitted effect) :
    Keeps others holds (prepareBaseline env context workingDirectory command) := by
  refine keeps_bind (keeps_ofOption _ _) fun helper => ?_
  refine keeps_bind (keeps_revalidateTurnWorkspace h context) fun workspaceRoot => ?_
  refine keeps_bind (keeps_check h _ _) fun _ => ?_
  refine keeps_bind (keeps_baselineDirectory h _ _ _) fun (executionRoot, guard, directory) => ?_
  dsimp only
  split
  · exact keeps_exit _
  · exact keeps_exit _
  · rename_i plan hplan
    obtain ⟨hintent, -, -, haccess⟩ := classifyCommand_baseline hplan
    have hwritable : context.access = .readWrite := by
      apply haccess
      rw [← WorkspaceCommandIntent.baseline.inj hintent]
      exact hwrites
    refine keeps_when (keeps_requireCurrentUserOwner h _) ?_
    refine keeps_read h fun toolchain => keeps_bind (keeps_ofOption _ _) fun toolchain => ?_
    refine keeps_bind (keeps_toolOf _ _) fun (toolExecutable, npmRuntime) => ?_
    refine keeps_bind (keeps_check h _ _) fun _ => ?_
    refine keeps_bind (keeps_checkNpmRuntime h _ _) fun _ => ?_
    dsimp only
    split
    · exact keeps_exit _
    · refine keeps_bind (keeps_prepareLaunch h _ _ (hpermitted hwritable _ rfl)) fun _ => ?_
      exact keeps_pure _

omit h in
/-- A command that writes is prepared in a writable workspace only, and it is no install. -/
theorem gives_prepareBaseline (context : DesktopCommandTurnContext) (workingDirectory : String)
    {command : BaselineCommand} (hwrites : command.writesWorkspace = true) :
    (prepareBaseline env context workingDirectory command).Gives
      (fun prepared => context.access = .readWrite ∧ prepared.backendKind ≠ .npmPackageInstall)
      fun _ => True := by
  refine gives_then (gives_anyway _) fun helper => gives_then (gives_anyway _) fun workspaceRoot =>
    gives_then (gives_anyway _) fun _ =>
      gives_then (gives_anyway _) fun (executionRoot, guard, directory) => ?_
  dsimp only
  split
  · exact gives_exit trivial
  · exact gives_exit trivial
  · rename_i plan hplan
    obtain ⟨hintent, -, -, haccess⟩ := classifyCommand_baseline hplan
    have hwritable : context.access = .readWrite := by
      apply haccess
      rw [← WorkspaceCommandIntent.baseline.inj hintent]
      exact hwrites
    refine gives_when (gives_anyway _) (gives_then (gives_anyway _) fun _ => ?_)
    refine gives_then (gives_anyway _) fun _ =>
      gives_then (gives_anyway _) fun (executable, _) => ?_
    refine gives_then (gives_anyway _) fun _ => gives_then (gives_anyway _) fun _ => ?_
    dsimp only
    split
    · exact gives_exit trivial
    · refine gives_then (gives_anyway _) fun _ => gives_pure ⟨hwritable, ?_⟩
      dsimp only
      split <;> nofun

/-! ## Installing a package -/

/-- Waiting for the answer of a confirmation keeps what the registry's actions keep. -/
theorem keeps_awaitReturn {ε : Type} (hact : ∀ action host, holds host → holds (host.act action))
    (roomId : String) (caller rounds : ℕ) :
    Keeps others holds (awaitReturn env roomId caller rounds : Thread Host ε _) := by
  have hadvance (expired : Bool) :
      Keeps others holds (advanceWaiter env roomId caller expired : Thread Host ε _) := by
    refine keeps_step h.stable fun moment host hhost => ?_
    dsimp only
    split
    · exact ⟨hact _ _ hhost, nofun⟩
    · exact ⟨hact _ _ hhost, nofun⟩
  induction rounds with
  | zero =>
    refine keeps_bind (hadvance true) fun result => ?_
    cases result <;> exact keeps_pure _
  | succ rounds ih =>
    refine keeps_bind (hadvance false) fun result => ?_
    cases result with
    | none => exact ih
    | some result => exact keeps_pure result

/-- Asking the owner keeps what the registry's actions keep. -/
theorem keeps_waitForRoomAuthorization {ε : Type}
    (hact : ∀ action host, holds host → holds (host.act action)) (roomId : String)
    (command : ActionTimeCommand) (targetLabel : String) :
    Keeps others holds
      (waitForRoomAuthorization env roomId command targetLabel : Thread Host ε _) := by
  refine keeps_bind ?_ fun caller => keeps_read h fun rounds => keeps_awaitReturn h hact _ _ _
  exact keeps_step h.stable fun moment host hhost => ⟨hact _ _ hhost, nofun⟩

/-- Finding the directory of an install starts nothing. -/
theorem keeps_installDirectory (workspaceRoot workingDirectory : String) :
    Keeps others holds (installDirectory env workspaceRoot workingDirectory) := by
  refine keeps_bind (keeps_check h _ _) fun _ => ?_
  refine keeps_bind (keeps_executionDirectoryRoot h _ _ _) fun (_, executionRoot) => ?_
  refine keeps_bind (keeps_requireCurrentUserOwner h _) fun _ => ?_
  exact keeps_bind (keeps_check h _ _) fun _ => keeps_pure _

/-- An install is prepared when a read-write turn may prepare one. -/
theorem keeps_prepareNpmPackageInstall
    (hact : ∀ action host, holds host → holds (host.act action))
    (context : DesktopCommandTurnContext)
    (workingDirectory packageName exactVersion : String)
    (hpermitted : context.access = .readWrite →
      ∀ effect, launchesInstall effect = false → permitted effect) :
    Keeps others holds
      (prepareNpmPackageInstall env context workingDirectory packageName exactVersion) := by
  -- The lookups and the checks before the question change nothing.
  refine keeps_bind (keeps_ofOption _ _) fun helper => keeps_read h fun toolchain => ?_
  refine keeps_bind (keeps_ofOption _ _) fun toolchain => ?_
  refine keeps_bind (keeps_ofOption _ _) fun node => ?_
  refine keeps_bind (keeps_ofOption _ _) fun npmRuntime => ?_
  refine keeps_bind (keeps_revalidateTurnWorkspace h context) fun workspaceRoot => ?_
  refine keeps_bind (keeps_check h _ _) fun _ => keeps_bind (keeps_check h _ _) fun _ => ?_
  refine keeps_bind (keeps_check h _ _) fun _ => ?_
  refine keeps_bind (keeps_installDirectory h _ _) fun _ => ?_
  split
  · exact keeps_exit _
  · rename_i plan hplan
    -- A plan is only made with write access, so what comes after the consent is permitted.
    have hwritable := (classifyNpmPackageInstall_plan hplan).1
    refine keeps_bind (keeps_waitForRoomAuthorization h hact _ _ _) fun result => ?_
    split
    · exact keeps_exit _
    · exact keeps_exit _
    · exact keeps_exit _
    · refine keeps_bind (keeps_revalidateTurnWorkspace h context) fun currentWorkspace => ?_
      refine keeps_bind (keeps_require _ _) fun _ => ?_
      refine keeps_bind (keeps_installDirectory h _ _) fun executionRoot => ?_
      split
      · exact keeps_exit _
      · refine keeps_bind (keeps_prepareLaunch h _ _ (hpermitted hwritable _ rfl)) fun _ => ?_
        exact keeps_pure _

omit h in
/-- An install is prepared in a writable workspace only. -/
theorem gives_prepareNpmPackageInstall (context : DesktopCommandTurnContext)
    (workingDirectory packageName exactVersion : String) :
    (prepareNpmPackageInstall env context workingDirectory packageName exactVersion).Gives
      (fun _ => context.access = .readWrite) fun _ => True := by
  refine gives_then (gives_anyway _) fun helper => gives_then (gives_anyway _) fun toolchain =>
    gives_then (gives_anyway _) fun toolchain => gives_then (gives_anyway _) fun node =>
      gives_then (gives_anyway _) fun npmRuntime => ?_
  refine gives_then (gives_anyway _) fun workspaceRoot => gives_then (gives_anyway _) fun _ =>
    gives_then (gives_anyway _) fun _ => gives_then (gives_anyway _) fun _ =>
      gives_then (gives_anyway _) fun _ => ?_
  split
  · exact gives_exit trivial
  · rename_i plan hplan
    exact gives_always (fun _ => (classifyNpmPackageInstall_plan hplan).1) fun _ => trivial

/-- The last look at the directory of a command starts nothing. -/
theorem keeps_guardedDirectory (workspaceRoot : String) (prepared : PreparedDesktopCommand)
    (guard : PreparedExecutionGuard) :
    Keeps others holds (guardedDirectory env workspaceRoot prepared guard) := by
  refine keeps_bind (keeps_check h _ _) fun _ => ?_
  cases guard with
  | nodeEntry relative | packageManifest relative =>
    refine keeps_bind (keeps_check h _ _) fun _ => ?_
    refine keeps_bind (keeps_executionDirectoryRoot h _ _ _) fun (moment, current) => ?_
    exact keeps_bind (keeps_require _ _) fun _ => keeps_pure _

/-- A prepared command starts what is permitted, and an install only when it is one. -/
theorem keeps_executePrepared (prepared : PreparedDesktopCommand)
    (hpermitted : ∀ effect,
      (launchesInstall effect = true → prepared.backendKind = .npmPackageInstall) →
      permitted effect) :
    Keeps others holds (executePrepared env prepared) := by
  refine keeps_read h fun (workspaceMoment, found) => ?_
  refine keeps_bind (keeps_ofOption _ _) fun (root, workspace) => ?_
  refine keeps_bind (keeps_require _ _) fun _ => keeps_read h fun (sessionActions, active) => ?_
  refine keeps_bind (keeps_require _ _) fun _ => keeps_bind (keeps_check h _ _) fun _ => ?_
  refine keeps_bind (keeps_check h _ _) fun _ => ?_
  refine keeps_bind (keeps_checkNpmRuntime h _ _) fun _ => ?_
  extract_lets afterDirectory
  -- Whatever the directory, the launch is checked again and then made.
  have hlaunch (found : ℕ × String) : Keeps others holds (afterDirectory found) := by
    obtain ⟨directoryMoment, executionRoot⟩ := found
    dsimp only [afterDirectory]
    refine keeps_when (keeps_revalidateCurrentUserOwner h _) ?_
    have hexecute (backend : CommandLaunch) (checks : LaunchChecks)
        (hkind : backend.kind = prepared.backendKind) :
        Keeps others holds (prepareLaunch env .backendPreparationFailed backend >>= fun _ =>
          (step fun moment host =>
            (.done (env.execute moment backend), host.start (.launched backend checks))) >>=
          ofOption .backendExecutionFailed : ExecuteProg CommandLaunchOutcome) := by
      -- The effects of the launch are those of the kind that was prepared.
      have hprepare := hpermitted (.prepared backend) nofun
      have hstart := hpermitted (.launched backend checks) fun hinstall =>
        hkind.symm.trans (eq_of_beq hinstall)
      refine keeps_bind (keeps_prepareLaunch h _ _ hprepare) fun _ => keeps_bind ?_ fun _ => ?_
      · exact keeps_step h.stable fun _ host hhost => ⟨h.start _ host hstart hhost, nofun⟩
      · exact keeps_ofOption _ _
    split
    · exact hexecute _ _ rfl
    · exact keeps_bind (keeps_ofOption _ _) fun npmRuntime => hexecute _ _ rfl
    · exact keeps_bind (keeps_ofOption _ _) fun npmRuntime => hexecute _ _ rfl
  cases prepared.executionGuard with
  | none => exact keeps_bind (keeps_pure _) hlaunch
  | some guard => exact keeps_bind (keeps_guardedDirectory h _ _ _) hlaunch

end Commands

/-! ## The tools -/

section Tools

variable {env : ToolSurroundings} (h : KeptBy others permitted holds)
include h

/-- A call of the workspace broker starts its effect, which must be permitted. -/
theorem keeps_brokerCall {α : Type} (effect : TurnEffect) (answer : ℕ → α)
    (hpermitted : permitted effect) : Keeps others holds (brokerCall effect answer) :=
  keeps_step h.stable fun _ host hhost => ⟨h.start _ host hpermitted hhost, nofun⟩

omit h in
/-- A tool that takes a path keeps what its action keeps for every path. -/
theorem keeps_withPath (arguments : Value)
    {act : String → Thread Host Empty (Except WorkspaceBoundaryError String)}
    (hact : ∀ path, Keeps others holds (act path)) :
    Keeps others holds (WorkspaceToolContext.withPath arguments act) := by
  unfold WorkspaceToolContext.withPath
  split
  · exact keeps_pure _
  · exact hact _

omit h in
/-- A tool that takes a path and contents keeps what its action keeps. -/
theorem keeps_withPathAndContent (arguments : Value)
    {act : String → String → Thread Host Empty (Except WorkspaceBoundaryError String)}
    (hact : ∀ path contents, Keeps others holds (act path contents)) :
    Keeps others holds (WorkspaceToolContext.withPathAndContent arguments act) := by
  unfold WorkspaceToolContext.withPathAndContent
  split
  · exact keeps_pure _
  · exact hact _ _

/-- A workspace tool starts what the tools of the turn permit. -/
theorem keeps_workspaceCall {contexts : TurnToolContexts} (hpermits : Permits contexts permitted)
    {context : WorkspaceToolContext} (hcontext : contexts.workspace = some context) (tool : String)
    (arguments : Value) : Keeps others holds (context.call env tool arguments) := by
  -- One case for each of the tools; listing and reading are always permitted.
  refine keeps_ite (fun _ => ?_) fun _ => keeps_ite (fun _ => ?_) fun _ =>
    keeps_ite (fun hcreate => ?_) fun _ => keeps_ite (fun hreplace => ?_) fun _ =>
      keeps_ite (fun _ => keeps_pure _) fun _ => keeps_pure _
  · refine keeps_bind (keeps_withPath arguments fun path => ?_) fun _ => keeps_pure _
    refine keeps_bind (keeps_brokerCall h _ _ (hpermits.reads _ rfl)) fun result => ?_
    cases result with
    | error e => exact keeps_pure _
    | ok entries => exact keeps_ite (fun _ => keeps_pure _) fun _ => keeps_pure _
  · refine keeps_bind (keeps_withPath arguments fun path => ?_) fun _ => keeps_pure _
    refine keeps_bind (keeps_brokerCall h _ _ (hpermits.reads _ rfl)) fun result => ?_
    cases result with
    | error e => exact keeps_pure _
    | ok bytes =>
      refine keeps_ite (fun _ => keeps_pure _) fun _ => ?_
      split <;> exact keeps_pure _
  -- The tools that write are only offered with write access.
  · have hwritable : context.access = .readWrite := by simp_all
    refine keeps_bind (keeps_withPathAndContent arguments fun path contents => ?_) fun _ =>
      keeps_pure _
    refine keeps_bind
      (keeps_brokerCall h _ _ (hpermits.files context hcontext hwritable _ rfl)) fun result => ?_
    cases result <;> exact keeps_pure _
  · have hwritable : context.access = .readWrite := by simp_all
    refine keeps_bind (keeps_withPathAndContent arguments fun path contents => ?_) fun _ =>
      keeps_pure _
    refine keeps_bind
      (keeps_brokerCall h _ _ (hpermits.files context hcontext hwritable _ rfl)) fun result => ?_
    cases result <;> exact keeps_pure _

/-- The Git status starts what the tools of the turn permit. -/
theorem keeps_gitStatus {contexts : TurnToolContexts} (hpermits : Permits contexts permitted)
    (context : CommandToolContext) : Keeps others holds (context.gitStatus env) := by
  refine keeps_bind (keeps_attempt (keeps_revalidateTurnWorkspace h _)) fun root => ?_
  cases root with
  | error e => exact keeps_pure _
  | ok root =>
    refine keeps_bind (keeps_brokerCall h _ _ (hpermits.reads _ rfl)) fun result => ?_
    cases result <;> exact keeps_pure _

omit h in
/-- A command is executed only where it is prepared. -/
theorem keeps_runPrepared {prepare : PrepareProg PreparedDesktopCommand}
    {answer : PreparedDesktopCommand → Prop} (hprepare : Keeps others holds prepare)
    (hgives : prepare.Gives answer fun _ => True)
    (hexecute : ∀ prepared, answer prepared →
      Keeps others holds (executePrepared env.toSurroundings prepared)) :
    Keeps others holds (CommandToolContext.runPrepared env prepare) := by
  have hresult := @gives_attempt _ _ _ _ _ Empty _ (fun _ => True) hgives
  refine keeps_bind_of (keeps_attempt hprepare) hresult fun result hresult => ?_
  cases result with
  | error e => exact keeps_pure _
  | ok prepared =>
    refine keeps_bind (keeps_attempt (hexecute prepared hresult)) fun outcome => ?_
    cases outcome <;> exact keeps_pure _

/-- A fixed command that writes needs the access of the turn. -/
theorem keeps_runBaseline (context : CommandToolContext) (directory : String)
    {command : BaselineCommand} (hwrites : command.writesWorkspace = true)
    (hpermitted : context.turn.access = .readWrite →
      ∀ effect, launchesInstall effect = false → permitted effect) :
    Keeps others holds (CommandToolContext.runPrepared env
      (prepareBaseline env.toSurroundings context.turn directory command)) := by
  refine keeps_runPrepared (keeps_prepareBaseline h _ _ hwrites hpermitted)
    (gives_prepareBaseline _ _ hwrites) fun prepared hprepared => ?_
  refine keeps_executePrepared h prepared fun effect hinstall => hpermitted hprepared.1 effect ?_
  by_contra hlaunches
  exact hprepared.2 (hinstall (by simpa using hlaunches))

/-- An install needs it too, where the launch of an install is permitted as everything else. -/
theorem keeps_installNpmPackage (hact : ∀ action host, holds host → holds (host.act action))
    (context : CommandToolContext) (directory packageName exactVersion : String)
    (hpermitted : context.turn.access = .readWrite → ∀ effect, permitted effect) :
    Keeps others holds (context.installNpmPackage env directory packageName exactVersion) := by
  refine keeps_runPrepared ?_ (gives_prepareNpmPackageInstall _ _ _ _) fun prepared hwritable => ?_
  · exact keeps_prepareNpmPackageInstall h hact _ _ _ _ fun hwritable effect _ =>
      hpermitted hwritable effect
  · exact keeps_executePrepared h prepared fun effect _ => hpermitted hwritable effect

omit h in
/-- The scripts that a call can ask for write. -/
theorem commandCall_writes {tool : Option String} {arguments : Option (List (String × Value))}
    {directory : String} {command : BaselineCommand}
    (hcall : commandCall env tool arguments = some (.runNpmScript directory command)) :
    command.writesWorkspace = true := by
  have hscript : command = .npmBuild ∨ command = .npmTest ∨ command = .npmTypecheck := by
    unfold commandCall at hcall
    split at hcall
    · simp only [Option.bind_eq_bind] at hcall
      split at hcall
      · cases hcall
      split at hcall
      · obtain ⟨_, -, hnode⟩ := Option.bind_eq_some_iff.mp hcall
        cases hnode
      split at hcall
      · obtain ⟨_, -, hscript⟩ := Option.bind_eq_some_iff.mp hcall
        split at hscript <;> cases hscript <;> simp
      split at hcall
      · obtain ⟨_, -, hinstall⟩ := Option.bind_eq_some_iff.mp hcall
        obtain ⟨_, -, hinstall⟩ := Option.bind_eq_some_iff.mp hinstall
        obtain ⟨_, -, hinstall⟩ := Option.bind_eq_some_iff.mp hinstall
        split at hinstall <;> cases hinstall
      · cases hcall
    · cases hcall
  rcases hscript with rfl | rfl | rfl <;> rfl

/-- A command tool starts what the tools permit, and what an install starts. -/
theorem keeps_commandDynamicToolResponse {contexts : TurnToolContexts}
    (hpermits : Permits contexts permitted)
    (hinstall : ∀ context, contexts.command = some context →
      ∀ directory packageName exactVersion,
        Keeps others holds (context.installNpmPackage env directory packageName exactVersion))
    (params : Value) (threadId turnId : String) :
    Keeps others holds
      (commandDynamicToolResponse env params threadId turnId contexts.command) := by
  refine keeps_ite (fun _ => keeps_pure _) fun _ => ?_
  split
  · exact keeps_pure _
  · rename_i call hcall
    split
    · exact keeps_pure _
    · rename_i context hcontext
      have hpermitted := hpermits.commands context hcontext
      extract_lets answered
      have hanswered (result : Except String String) : Keeps others holds (answered result) := by
        cases result <;> exact keeps_pure _
      cases call with
      | gitStatus => exact keeps_bind (keeps_gitStatus h hpermits context) hanswered
      | runNode directory =>
        exact keeps_bind (keeps_runBaseline h context directory rfl hpermitted) hanswered
      | runNpmScript directory command =>
        have hwrites := commandCall_writes hcall
        exact keeps_bind (keeps_runBaseline h context directory hwrites hpermitted) hanswered
      | installNpmPackage directory packageName exactVersion =>
        exact keeps_bind (hinstall context hcontext directory packageName exactVersion) hanswered

/-- The answer to a workspace tool call starts what the tools permit. -/
theorem keeps_workspaceDynamicToolResponse {contexts : TurnToolContexts}
    (hpermits : Permits contexts permitted) (params : Value) (threadId turnId : String) :
    Keeps others holds
      (workspaceDynamicToolResponse env params threadId turnId contexts.workspace) := by
  refine keeps_ite (fun _ => keeps_pure _) fun _ => ?_
  split
  · exact keeps_pure _
  · rename_i context hcontext
    split
    · exact keeps_workspaceCall h hpermits hcontext _ _
    · exact keeps_pure _

/-- A tool call keeps what the effects keep that the turn can start and what an install keeps,
whatever its name and its arguments are. -/
theorem keeps_toolResult {contexts : TurnToolContexts} (hpermits : Permits contexts permitted)
    (hinstall : ∀ context, contexts.command = some context →
      ∀ directory packageName exactVersion,
        Keeps others holds (context.installNpmPackage env directory packageName exactVersion))
    (params : Value) (threadId turnId : String) :
    Keeps others holds (toolResult env params threadId turnId contexts) := by
  unfold toolResult
  split
  · refine keeps_ite (fun _ => keeps_workspaceDynamicToolResponse h hpermits _ _ _) fun _ => ?_
    exact keeps_ite (fun _ => keeps_commandDynamicToolResponse h hpermits hinstall _ _ _) fun _ =>
      keeps_pure _
  · exact keeps_pure _

end Tools

end Mio.Desktop.CodexTools
