import Mio.Desktop.CodexTurnLaws
import Mio.Desktop.CommandConfirmationConsents

/-!
# What an install of a turn rests on

Whatever the other threads do meanwhile, an install that a turn launches is one that the owner has
allowed: the request decodes to the package and the version that the label of the consent names, the
consent is one of the session and the workspace of the turn, both are still there at the last checks
before the launch, and the directory is the one that the label names, as it is resolved then.

The session of the turn had been opened when the turn started. The consent is one of the session
that was active when it was asked for. Were that another one, the session of the turn would be gone
by then, and the last check would find it so.
-/

namespace Mio.Desktop.CommandExecution

open Library Library.Thread Broker
open CommandConfirmations
  (Action System Active Opened Gone Asking Approved Consented InSession actor?)

/-- The session that the context stands for. -/
def DesktopRoomCommandContext.session (context : DesktopRoomCommandContext) :
    CommandConfirmations.DesktopRoomCommandSession where
  roomId := context.roomId
  sessionId := context.sessionId
  workspaceKey := context.workspaceKey

/-- The directory that a relative path is. -/
def resolvedDirectory (env : Surroundings) (moment : ℕ) (workspaceRoot relative : String) :
    Option String :=
  if isCurrentDirectory relative then some workspaceRoot
  else env.existingDirectory moment workspaceRoot relative

/-- What the launch of an install rests on. -/
structure Covers (env : Surroundings) (turn : DesktopCommandTurnContext) (launch : CommandLaunch)
    (checks : LaunchChecks) (plan : NpmPackageInstallPlan) (directory : String) : Prop where
  /-- The helper reads the package from the request. -/
  decoded : env.codec.decodeCommandRequest launch.request = .ok (.npmPackageInstall plan)
  /-- The owner has allowed it under its label, in the session and for the workspace of the turn. -/
  consented : ∃ scope, Consented env.processId checks.sessionActions scope ∧
    InSession scope turn.roomContext.session ∧ scope.command = .packageInstall ∧
      scope.targetLabel = installLabel plan directory
  /-- The session is the one of its room at the last check. -/
  session : Active (System.run env.processId checks.sessionActions).state turn.roomContext.session
  /-- So is the workspace. -/
  workspace : ∃ workspace,
    env.availableWorkspace checks.workspaceMoment turn.roomContext.roomId =
        some (turn.workspaceRoot, workspace) ∧
      workspace.identityKey = turn.roomContext.workspaceKey
  /-- The process is started in the directory of the label, as it is resolved at the last check. -/
  directory : resolvedDirectory env checks.directoryMoment turn.workspaceRoot directory =
    some launch.executionRoot

/-! ## What a turn holds on to -/

/-- The threads of calls that are still to come have done nothing. -/
def Fresh (env : Surroundings) (host : Host) : Prop :=
  ∀ n, host.actions.length ≤ n → (host.confirmations env.processId).threads (2 * n + 1) = .idle

/-- Every install that was launched is covered. -/
def AllCovered (env : Surroundings) (turn : DesktopCommandTurnContext) (host : Host) : Prop :=
  ∀ launch checks isCancelled, .started (.launched launch checks) isCancelled ∈ host.events →
    launch.kind = .npmPackageInstall → ∃ plan directory,
      Covers env turn launch checks plan directory

/-- What holds throughout a turn. -/
structure Holds (env : Surroundings) (turn : DesktopCommandTurnContext) (host : Host) : Prop where
  fresh : Fresh env host
  opened : Opened env.processId (host.confirmations env.processId) turn.roomContext.session
  covered : AllCovered env turn host

variable {env : Surroundings} {turn : DesktopCommandTurnContext} {host : Host}

/-- An action of the host is a step of the confirmations. -/
theorem confirmations_act (processId : UInt32) (action : Action) (host : Host) :
    (host.act action).confirmations processId =
      (host.confirmations processId).step processId action :=
  CommandConfirmations.run_append_singleton host.actions action

/-- The other threads have even numbers. -/
theorem actor?_otherAction {action : Action} {n : ℕ} :
    actor? (otherAction action) ≠ some (2 * n + 1) := by
  cases action
  all_goals
    intro h
    first
      | cases h
      | have hthread := Option.some.inj h
        omega

/-- An action that is not of a later call leaves the later calls untouched. -/
theorem Fresh.act {action : Action} (h : Fresh env host)
    (haction : ∀ n, host.actions.length < n → actor? action ≠ some (2 * n + 1)) :
    Fresh env (host.act action) := by
  intro n hn
  have hlater : host.actions.length < n := by
    have hlength : (host.act action).actions.length = host.actions.length + 1 :=
      List.length_append
    omega
  rw [confirmations_act, CommandConfirmations.step_threads _ _ (haction n hlater)]
  exact h n hlater.le

/-- No other thread touches the later calls. -/
theorem Fresh.other (h : Fresh env host) (step : OtherStep) : Fresh env (host.other step) := by
  cases step with
  | registry action => exact h.act fun n _ => actor?_otherAction
  | stop => exact h

/-- An action that is not of a later call keeps what holds. -/
theorem Holds.act {action : Action} (h : Holds env turn host)
    (haction : ∀ n, host.actions.length < n → actor? action ≠ some (2 * n + 1)) :
    Holds env turn (host.act action) where
  fresh := h.fresh.act haction
  opened := by
    rw [confirmations_act]
    exact h.opened.step action
  covered := h.covered

/-- No other thread breaks what holds. -/
theorem Holds.other (h : Holds env turn host) (step : OtherStep) :
    Holds env turn (host.other step) := by
  cases step with
  | registry action => exact h.act fun n _ => actor?_otherAction
  | stop => exact ⟨h.fresh, h.opened, h.covered⟩

/-- What holds throughout a turn is kept by the other threads. -/
theorem holds_stable (steps : ℕ → List OtherStep) : Stable (others steps) (Holds env turn) :=
  stable_others fun step _ h => h.other step

/-- An event that launches nothing, or a launch that is covered. -/
theorem Holds.note {event : HostEvent} (h : Holds env turn host)
    (hevent : ∀ launch checks isCancelled, event = .started (.launched launch checks) isCancelled →
      launch.kind = .npmPackageInstall → ∃ plan directory,
        Covers env turn launch checks plan directory) :
    Holds env turn (host.note event) where
  fresh := h.fresh
  opened := h.opened
  covered launch checks isCancelled hmem hkind := by
    rcases List.mem_cons.mp hmem with heq | hmem
    · exact hevent launch checks isCancelled heq.symm hkind
    · exact h.covered launch checks isCancelled hmem hkind

/-- Everything but an install may start. -/
theorem holds_keptBy (steps : ℕ → List OtherStep) :
    CodexTools.KeptBy (others steps) (fun effect => CodexTools.launchesInstall effect = false)
      (Holds env turn) where
  stable := holds_stable steps
  start effect host heffect h := h.note fun launch checks isCancelled hevent hkind => by
    injection hevent with heffect'
    subst heffect'
    rw [CodexTools.launchesInstall, hkind] at heffect
    cases heffect

/-! ## Waiting for consent -/

/-- What the owner has allowed so far. -/
def ApprovedAt (env : Surroundings) (turn : DesktopCommandTurnContext) (targetLabel : String)
    (host : Host) : Prop :=
  Approved env.processId host.actions turn.roomContext.session .packageInstall targetLabel

/-- A call of the turn waits. -/
structure Waits (env : Surroundings) (turn : DesktopCommandTurnContext) (targetLabel : String)
    (call : ℕ) (host : Host) : Prop where
  holds : Holds env turn host
  numbered : call < host.actions.length
  asking : Asking env.processId host.actions turn.roomContext.session .packageInstall targetLabel
    ((host.confirmations env.processId).threads (2 * call + 1))

variable {targetLabel : String} {call : ℕ}

/-- What the owner has allowed stays allowed. -/
theorem ApprovedAt.act (h : ApprovedAt env turn targetLabel host) (action : Action) :
    ApprovedAt env turn targetLabel (host.act action) :=
  Approved.step h action

/-- No other thread takes the owner's consent back. -/
theorem ApprovedAt.other (h : ApprovedAt env turn targetLabel host) (step : OtherStep) :
    ApprovedAt env turn targetLabel (host.other step) := by
  cases step with
  | registry action => exact h.act _
  | stop => exact h

/-- No other thread ends the wait of the call. -/
theorem Waits.other (h : Waits env turn targetLabel call host) (step : OtherStep) :
    Waits env turn targetLabel call (host.other step) := by
  refine ⟨h.holds.other step, ?_, ?_⟩
  · have hnumbered := h.numbered
    cases step with
    | registry action =>
      have hlength : (host.other (.registry action)).actions.length = host.actions.length + 1 :=
        List.length_append
      omega
    | stop => exact hnumbered
  · cases step with
    | registry action =>
      show Asking _ (host.actions ++ [otherAction action]) _ _ _
        (((host.act (otherAction action)).confirmations _).threads _)
      rw [confirmations_act, CommandConfirmations.step_threads _ _ actor?_otherAction]
      exact h.asking.mono _
    | stop => exact h.asking

/-- The thread of the call takes a step. -/
theorem Waits.advance (h : Waits env turn targetLabel call host)
    (seen : CommandConfirmations.Seen) :
    Waits env turn targetLabel call (host.act (.advance (2 * call + 1) seen)) := by
  have hnumbered := h.numbered
  refine ⟨h.holds.act fun n hn hactor => ?_, ?_, h.asking.advance h.holds.opened seen⟩
  · have hthread := Option.some.inj hactor
    omega
  · have hlength : (host.act (.advance (2 * call + 1) seen)).actions.length =
        host.actions.length + 1 := List.length_append
    omega

/-- A result, and what it rests on. -/
def Rests (env : Surroundings) (turn : DesktopCommandTurnContext) (targetLabel : String)
    (result : CommandConfirmations.WaitResult) (host : Host) : Prop :=
  ∀ authorization, result = .ok (.authorized authorization) → ApprovedAt env turn targetLabel host

variable {steps : ℕ → List OtherStep}

/-- The consent behind a result stays given. -/
theorem rests_stable (result : CommandConfirmations.WaitResult) :
    Stable (others steps) (Rests env turn targetLabel result) :=
  stable_others fun step _ h authorization hresult => (h authorization hresult).other step

/-- The wait of a call is kept by the other threads. -/
theorem waits_stable : Stable (others steps) (Waits env turn targetLabel call) :=
  stable_others fun step _ h => h.other step

/-- A step of the waiter goes on waiting, or has a result that rests on consent. -/
theorem advanceWaiter_spec {ε : Type} (roomId : String) (expired : Bool) {now : Instant Host}
    (hnow : Waits env turn targetLabel call now.state) :
    wp (others steps) (advanceWaiter env roomId (2 * call + 1) expired : Thread Host ε _)
      (fun result now => Waits env turn targetLabel call now.state ∧
        ∀ returned, result = some returned → Rests env turn targetLabel returned now.state)
      (fun _ _ => False) (fun _ => False) now := by
  unfold advanceWaiter
  rw [wp_step]
  dsimp only
  generalize CommandConfirmations.Seen.mk _ expired = seen
  have hwaits := hnow.advance seen
  have hafter := @waits_stable env turn targetLabel call steps now.moment _ hwaits
  have hasking := hwaits.asking
  generalize hthread : ((now.state.act (.advance (2 * call + 1) seen)).confirmations
    env.processId).threads (2 * call + 1) = thread at hasking ⊢
  cases thread with
  | returned requestId returned =>
    refine ⟨hafter, fun other hother => ?_⟩
    obtain rfl := Option.some.inj hother
    exact rests_stable returned now.moment _ hasking
  | _ =>
    refine ⟨hafter, ?_⟩
    rintro _ ⟨⟩

/-- The whole wait ends with a result that rests on consent, by induction on the rounds. -/
theorem awaitReturn_spec {ε : Type} (roomId : String) (rounds : ℕ) {now : Instant Host}
    (hnow : Waits env turn targetLabel call now.state) :
    wp (others steps) (awaitReturn env roomId (2 * call + 1) rounds : Thread Host ε _)
      (fun result now => Holds env turn now.state ∧ Rests env turn targetLabel result now.state)
      (fun _ _ => False) (fun _ => False) now := by
  induction rounds generalizing now with
  | zero =>
    unfold awaitReturn
    rw [wp_bind]
    refine wp_mono (advanceWaiter_spec roomId true hnow) (fun result now h => ?_) nofun nofun
    cases result with
    | none => exact ⟨h.1.holds, nofun⟩
    | some result => exact ⟨h.1.holds, h.2 result rfl⟩
  | succ rounds ih =>
    unfold awaitReturn
    rw [wp_bind]
    refine wp_mono (advanceWaiter_spec roomId false hnow) (fun result now h => ?_) nofun nofun
    cases result with
    | none => exact ih h.1
    | some result => exact ⟨h.1.holds, h.2 result rfl⟩

/-- The call returns, and what it authorizes the owner has allowed. -/
theorem waitForRoomAuthorization_spec {ε : Type} {now : Instant Host}
    (hnow : Holds env turn now.state) :
    wp (others steps)
      (waitForRoomAuthorization env turn.roomContext.roomId .packageInstall targetLabel :
        Thread Host ε _)
      (fun result now => Holds env turn now.state ∧ Rests env turn targetLabel result now.state)
      (fun _ _ => False) (fun _ => False) now := by
  unfold waitForRoomAuthorization
  rw [wp_bind, wp_step]
  dsimp only
  have hidle := hnow.fresh now.state.actions.length le_rfl
  have hcalled : Waits env turn targetLabel now.state.actions.length (now.state.act
      (.waitForRoomAuthorization (2 * now.state.actions.length + 1) turn.roomContext.roomId
        .packageInstall targetLabel)) := by
    refine ⟨hnow.act fun n hn hactor => ?_, ?_,
      @CommandConfirmations.asking_call env.processId now.state.actions turn.roomContext.session
        .packageInstall targetLabel _ hidle⟩
    · have hthread := Option.some.inj hactor
      omega
    · have hlength : (now.state.act (.waitForRoomAuthorization (2 * now.state.actions.length + 1)
          turn.roomContext.roomId .packageInstall targetLabel)).actions.length =
            now.state.actions.length + 1 := List.length_append
      omega
  rw [wp_bind, wp_reads]
  refine awaitReturn_spec _ _ ?_
  exact waits_stable _ _ (waits_stable _ _ hcalled)

/-! ## Preparing an install -/

/-- What holds once the owner has allowed an install. -/
structure HoldsApproved (env : Surroundings) (turn : DesktopCommandTurnContext)
    (targetLabel : String) (host : Host) : Prop where
  holds : Holds env turn host
  approved : ApprovedAt env turn targetLabel host

open CodexTools in
/-- Consent is kept while no install starts. -/
theorem approved_keptBy (steps : ℕ → List OtherStep) :
    KeptBy (others steps) (fun effect => launchesInstall effect = false)
      (HoldsApproved env turn targetLabel) where
  stable := stable_others fun step _ h => ⟨h.holds.other step, h.approved.other step⟩
  start effect host heffect h :=
    ⟨(holds_keptBy steps).start effect host heffect h.holds, h.approved⟩

/-- What is prepared for an install. -/
structure PreparedInstall (env : Surroundings) (turn : DesktopCommandTurnContext)
    (prepared : PreparedDesktopCommand) (plan : NpmPackageInstallPlan) (directory : String) :
    Prop where
  decoded : env.codec.decodeCommandRequest prepared.request = .ok (.npmPackageInstall plan)
  guard : prepared.executionGuard = some (.packageManifest directory)
  kind : prepared.backendKind = .npmPackageInstall
  context : prepared.roomContext = turn.roomContext
  root : prepared.workspaceRoot = turn.workspaceRoot

/-- The root that is found again is the one of the turn. -/
theorem gives_revalidateTurnWorkspace :
    (revalidateTurnWorkspace env turn).Gives (fun root => root = turn.workspaceRoot)
      fun _ => True := by
  refine gives_then (gives_anyway _) fun found =>
    gives_then (gives_anyway _) fun (root, workspace) => ?_
  refine gives_bind gives_require fun _ hsame => gives_then (gives_anyway _) fun active => ?_
  refine gives_then (gives_anyway _) fun _ => gives_pure ?_
  exact eq_of_beq (Bool.and_eq_true_iff.mp hsame).1

open CodexTools in
/-- An install is prepared only with the owner's consent. -/
theorem prepareNpmPackageInstall_spec (hcodec : env.codec.Lawful)
    (directory packageName exactVersion :
    String) {now : Instant Host} (hnow : Holds env turn now.state) :
    wp (others steps) (prepareNpmPackageInstall env turn directory packageName exactVersion)
      (fun prepared now => Holds env turn now.state ∧ ∃ plan,
        PreparedInstall env turn prepared plan directory ∧
          ApprovedAt env turn (installLabel plan directory) now.state)
      (fun _ now => Holds env turn now.state) (fun _ => False) now := by
  have hkept := @holds_keptBy env turn steps
  have hleft : ∀ (_ : DesktopCommandPreparationError) (now : Instant Host),
      Holds env turn now.state → Holds env turn now.state := fun _ _ h => h
  unfold prepareNpmPackageInstall
  refine (keeps_ofOption _ _).wp_bind (gives_anyway _) hnow (fun helper _ now hnow => ?_) hleft
  refine (keeps_reads hkept.stable _).wp_bind (gives_anyway _) hnow (fun toolchain _ now hnow => ?_)
    hleft
  refine (keeps_ofOption _ _).wp_bind (gives_anyway _) hnow (fun toolchain _ now hnow => ?_) hleft
  refine (keeps_ofOption _ _).wp_bind (gives_anyway _) hnow (fun node _ now hnow => ?_) hleft
  refine (keeps_ofOption _ _).wp_bind (gives_anyway _) hnow (fun npmRuntime _ now hnow => ?_) hleft
  refine (keeps_revalidateTurnWorkspace hkept turn).wp_bind gives_revalidateTurnWorkspace hnow
    (fun workspaceRoot hroot now hnow => ?_) hleft
  refine (keeps_check hkept _ _).wp_bind (gives_anyway _) hnow (fun _ _ now hnow => ?_) hleft
  refine (keeps_check hkept _ _).wp_bind (gives_anyway _) hnow (fun _ _ now hnow => ?_) hleft
  refine (keeps_check hkept _ _).wp_bind (gives_anyway _) hnow (fun _ _ now hnow => ?_) hleft
  refine (keeps_installDirectory hkept _ _).wp_bind (gives_anyway _) hnow (fun _ _ now hnow => ?_)
    hleft
  split
  · exact hnow
  rename_i plan hplan
  rw [wp_bind]
  refine wp_mono (waitForRoomAuthorization_spec hnow) (fun result now hresult => ?_) nofun nofun
  obtain ⟨hnow, hrests⟩ := hresult
  split
  · exact hnow
  · exact hnow
  · exact hnow
  rename_i authorization
  -- From here on the owner has allowed it.
  have happroved := @approved_keptBy env turn (installLabel plan directory) steps
  have hnow : HoldsApproved env turn (installLabel plan directory) now.state :=
    ⟨hnow, hrests authorization rfl⟩
  have hleft' : ∀ (_ : DesktopCommandPreparationError) (now : Instant Host),
      HoldsApproved env turn (installLabel plan directory) now.state → Holds env turn now.state :=
    fun _ _ h => h.holds
  refine (keeps_revalidateTurnWorkspace happroved turn).wp_bind (gives_anyway _) hnow
    (fun currentWorkspace _ now hnow => ?_) hleft'
  refine (keeps_require _ _).wp_bind (gives_anyway _) hnow (fun _ _ now hnow => ?_) hleft'
  refine (keeps_installDirectory happroved _ _).wp_bind (gives_anyway _) hnow
    (fun executionRoot _ now hnow => ?_) hleft'
  split
  · exact hnow.holds
  rename_i request hrequest
  refine (keeps_prepareLaunch happroved _ _ rfl).wp_bind (gives_anyway _) hnow
    (fun _ _ now hnow => ?_) hleft'
  have hdecoded := HelperCodec.decode_encodeNpmPackageInstall hcodec hrequest
  exact ⟨hnow.holds, plan, ⟨hdecoded, rfl, rfl, rfl, hroot⟩, hnow.approved⟩

/-! ## Executing an install -/

/-- A context that still matches is of an active session. -/
theorem active_of_matchesActiveContext {context : DesktopRoomCommandContext}
    (h : matchesActiveContext env context host = true) :
    Active (host.confirmations env.processId).state context.session := by
  unfold matchesActiveContext at h
  split at h
  · cases h
  · rename_i session hsession
    simp only [Bool.and_eq_true, beq_iff_eq] at h
    obtain ⟨⟨hroom, hid⟩, hkey⟩ := h
    have hsame : session = context.session := by
      rw [DesktopRoomCommandContext.session, ← hroom, ← hid, ← hkey]
    rw [← hsame, Active, hroom]
    exact hsession

/-- The directory that is found is the resolved one. -/
theorem gives_executionDirectoryRoot {ε : Type} (e : ε) (workspaceRoot relative : String) :
    (executionDirectoryRoot env e workspaceRoot relative).Gives
      (fun found => resolvedDirectory env found.1 workspaceRoot relative = some found.2)
      fun _ => True := by
  have hreads :
    (reads fun moment _ => (moment, resolvedDirectory env moment workspaceRoot relative) :
      Thread Host ε _).Gives
        (fun found => resolvedDirectory env found.1 workspaceRoot relative = found.2) fun _ =>
          True :=
    gives_reads fun _ _ => rfl
  refine gives_bind hreads fun found hfound => ?_
  exact gives_bind gives_ofOption fun directory hdirectory => gives_pure (hfound.trans hdirectory)

/-- The directory is the resolved one, and the one that the command was prepared for. -/
theorem gives_guardedDirectory (workspaceRoot directory : String)
    (prepared : PreparedDesktopCommand) :
    (guardedDirectory env workspaceRoot prepared (.packageManifest directory)).Gives
      (fun found => resolvedDirectory env found.1 workspaceRoot directory = some found.2)
      fun _ => True := by
  refine gives_then (gives_anyway _) fun _ => gives_then (gives_anyway _) fun _ => ?_
  refine gives_bind (gives_executionDirectoryRoot _ _ _) fun (moment, current) hcurrent => ?_
  exact gives_then (gives_anyway _) fun _ => gives_pure hcurrent

/-- The consent is one of the session of the turn, since that one is still there. -/
theorem consented_of_approved {actions : List Action}
    (happroved : Approved env.processId actions turn.roomContext.session
      .packageInstall targetLabel)
    (hactive : Active (System.run env.processId actions).state turn.roomContext.session) :
    ∃ scope, Consented env.processId actions scope ∧ InSession scope turn.roomContext.session ∧
      scope.command = .packageInstall ∧ scope.targetLabel = targetLabel := by
  obtain ⟨session, scope, hrequest, hsame, hconsented⟩ := happroved
  have hsession : session = turn.roomContext.session :=
    hsame.resolve_right fun hgone => hgone.inactive hactive
  subst hsession
  exact ⟨scope, hconsented, hrequest.inSession, hrequest.command, hrequest.targetLabel⟩

/-- A launch that is covered. -/
theorem Holds.launch {launch : CommandLaunch} {checks : LaunchChecks} {plan : NpmPackageInstallPlan}
    {directory : String} (h : Holds env turn host)
    (hcovers : Covers env turn launch checks plan directory) :
    Holds env turn (host.start (.launched launch checks)) := by
  refine h.note fun launch' checks' isCancelled hevent _ => ⟨plan, directory, ?_⟩
  injection hevent with heffect
  injection heffect with hlaunch hchecks
  rw [← hlaunch, ← hchecks]
  exact hcovers

open CodexTools in
/-- What is launched for a prepared install is covered by the consent. -/
theorem executePrepared_spec {prepared : PreparedDesktopCommand} {plan : NpmPackageInstallPlan}
    {directory : String} (hprepared : PreparedInstall env turn prepared plan directory)
    {now : Instant Host} (hnow : HoldsApproved env turn (installLabel plan directory) now.state) :
    wp (others steps) (executePrepared env prepared) (fun _ now => Holds env turn now.state)
      (fun _ now => Holds env turn now.state) (fun _ => False) now := by
  have hkept := @approved_keptBy env turn (installLabel plan directory) steps
  have hleft : ∀ (_ : DesktopCommandExecutionError) (now : Instant Host),
      HoldsApproved env turn (installLabel plan directory) now.state → Holds env turn now.state :=
    fun _ _ h => h.holds
  have hlooks : (reads fun moment _ =>
      (moment, env.availableWorkspace moment prepared.roomContext.roomId) : ExecuteProg _).Gives
        (fun found => found.2 = env.availableWorkspace found.1 prepared.roomContext.roomId)
        fun _ => True := gives_reads fun _ _ => rfl
  unfold executePrepared
  refine (keeps_reads hkept.stable _).wp_bind hlooks hnow (fun found hfound now hnow => ?_) hleft
  obtain ⟨workspaceMoment, found⟩ := found
  refine (keeps_ofOption _ _).wp_bind gives_ofOption hnow (fun workspace hworkspace now hnow => ?_)
    hleft
  obtain ⟨root, workspace⟩ := workspace
  refine (keeps_require _ _).wp_bind gives_require hnow (fun _ hsame now hnow => ?_) hleft
  obtain ⟨hidentity, hroot⟩ := Bool.and_eq_true_iff.mp hsame
  obtain rfl : root = turn.workspaceRoot := (eq_of_beq hroot).trans hprepared.root
  rw [hprepared.context] at hidentity
  have hworkspace : ∃ workspace,
      env.availableWorkspace workspaceMoment turn.roomContext.roomId =
          some (turn.workspaceRoot, workspace) ∧
        workspace.identityKey = turn.roomContext.workspaceKey := by
    refine ⟨workspace, ?_, eq_of_beq hidentity⟩
    rw [← hprepared.context]
    exact hfound.symm.trans hworkspace
  -- The session is compared with what the registry is now.
  rw [wp_bind, wp_reads]
  have hactive : matchesActiveContext env prepared.roomContext now.state = true →
      Active (System.run env.processId now.state.actions).state turn.roomContext.session := by
    rw [hprepared.context]
    exact active_of_matchesActiveContext
  have happroved : Approved env.processId now.state.actions turn.roomContext.session .packageInstall
      (installLabel plan directory) := hnow.approved
  have hnow : HoldsApproved env turn (installLabel plan directory)
      (now.after (others steps) now.state).state := hkept.stable _ _ hnow
  generalize now.state.actions = sessionActions at happroved hactive ⊢
  refine (keeps_require _ _).wp_bind gives_require hnow (fun _ hmatches now hnow => ?_) hleft
  have hsession := hactive hmatches
  have hconsented := consented_of_approved happroved hsession
  refine (keeps_check hkept _ _).wp_bind (gives_anyway _) hnow (fun _ _ now hnow => ?_) hleft
  refine (keeps_check hkept _ _).wp_bind (gives_anyway _) hnow (fun _ _ now hnow => ?_) hleft
  refine (keeps_checkNpmRuntime hkept _ _).wp_bind (gives_anyway _) hnow (fun _ _ now hnow => ?_)
    hleft
  rw [hprepared.guard]
  dsimp only
  refine (keeps_guardedDirectory hkept _ _ _).wp_bind (gives_guardedDirectory _ _ _) hnow
    (fun found hdirectory now hnow => ?_) hleft
  obtain ⟨directoryMoment, executionRoot⟩ := found
  dsimp only
  have hcovers (launch : CommandLaunch) (hrequest : launch.request = prepared.request)
      (hroot : launch.executionRoot = executionRoot) :
      Covers env turn launch { workspaceMoment, sessionActions, directoryMoment }
        plan directory := by
    refine ⟨?_, hconsented, hsession, hworkspace, ?_⟩
    · rw [hrequest]
      exact hprepared.decoded
    · rw [hroot]
      exact hdirectory
  rw [hprepared.kind, Option.isSome_some, if_pos rfl]
  refine (keeps_revalidateCurrentUserOwner hkept _).wp_bind (gives_anyway _) hnow
    (fun _ _ now hnow => ?_) hleft
  refine (keeps_ofOption _ _).wp_bind (gives_anyway _) hnow (fun npmRuntime _ now hnow => ?_) hleft
  refine (keeps_prepareLaunch hkept _ _ rfl).wp_bind (gives_anyway _) hnow
    (fun _ _ now hnow => ?_) hleft
  rw [wp_bind, wp_step]
  have hlaunched := holds_stable steps now.moment _ (hnow.holds.launch (hcovers
    { kind := .npmPackageInstall, executionRoot, helper := prepared.helper
      executable := prepared.toolExecutable.path, npmRuntime := some npmRuntime
      request := prepared.request } rfl rfl))
  dsimp only
  rw [wp_ofOption]
  split
  · exact hlaunched
  · exact hlaunched

end Mio.Desktop.CommandExecution

namespace Mio.Desktop.CodexTools

open Library Library.Thread Broker CommandExecution

variable {env : ToolSurroundings} {context : CommandToolContext} {steps : ℕ → List OtherStep}

/-- The tool that installs a package keeps what the turn holds on to. -/
theorem holds_installNpmPackage (hcodec : env.codec.Lawful)
    (directory packageName exactVersion : String) :
    Keeps (others steps) (Holds env.toSurroundings context.turn)
      (context.installNpmPackage env directory packageName exactVersion) := by
  intro now hnow
  unfold CommandToolContext.installNpmPackage CommandToolContext.runPrepared
  rw [wp_bind, wp_attempt]
  refine wp_mono (prepareNpmPackageInstall_spec hcodec directory packageName exactVersion hnow)
    (fun prepared now hprepared => ?_) (fun _ _ h => h) nofun
  obtain ⟨hnow, plan, hprepared, happroved⟩ := hprepared
  dsimp only
  rw [wp_bind, wp_attempt]
  exact wp_mono (executePrepared_spec hprepared ⟨hnow, happroved⟩) (fun _ _ h => h) (fun _ _ h => h)
    nofun

end Mio.Desktop.CodexTools

namespace Mio.Desktop.CodexAppServer

open Library Library.Thread Broker CommandExecution CodexTools
open AiDispatch (TextTurnRequest TextTurnWorkspaceAccess)
open CommandConfirmations (Active Opened)

variable {env : CodexSurroundings} {steps : ℕ → List OtherStep} {contexts : TurnToolContexts}

/-! ## The start of a turn -/

/-- What holds when a turn starts. -/
structure Starting (env : CodexSurroundings) (host : Host) : Prop where
  fresh : Fresh env.toSurroundings host
  events : host.events = []

/-- The other threads start nothing before the turn does. -/
theorem starting_stable : Stable (CommandExecution.others steps) (Starting env) :=
  stable_others fun step host h => ⟨h.fresh.other step, by cases step <;> exact h.events⟩

/-- What holds throughout a turn with the tools. -/
structure TurnHolds (env : CodexSurroundings) (contexts : TurnToolContexts)
    (host : Host) : Prop where
  command : ∀ context, contexts.command = some context → Holds env.toSurroundings context.turn host
  withoutCommand : contexts.command = none →
    ∀ effect, launchesInstall effect = true → ¬Started effect host

/-- The context that is found is of a session that was opened. -/
theorem opened_of_activeRoomContext {roomId : String}
    {workspace : RoomWorkspace.AvailableRoomWorkspace}
    {host : Host} {context : DesktopRoomCommandContext}
    (h : activeRoomContext env.toSurroundings roomId workspace host = some context) :
    Opened env.processId (host.confirmations env.processId) context.session := by
  have hsessions := @CommandConfirmations.sessions_run env.processId host.actions
  unfold activeRoomContext at h
  split at h
  · cases h
  · rename_i session hsession
    split at h
    · obtain rfl := Option.some.inj h
      refine CommandConfirmations.opened_of_active hsessions ?_
      show _ = some session
      rw [hsessions.room roomId session hsession]
      exact hsession
    · cases h

/-- The session of the context has been opened. -/
theorem contextForTurn_spec (request : TextTurnRequest) {now : Instant Host}
    (hnow : Starting env now.state) :
    wp (CommandExecution.others steps) (contextForTurn env.toSurroundings request)
      (fun turn now => Holds env.toSurroundings turn now.state)
        (fun _ now => Starting env now.state)
      (fun _ => False) now := by
  have hleft : ∀ (_ : DesktopCommandPreparationError) (now : Instant Host),
      Starting env now.state → Starting env now.state := fun _ _ h => h
  unfold contextForTurn
  refine (keeps_ofOption _ _).wp_bind (gives_anyway _) hnow (fun roomId _ now hnow => ?_) hleft
  refine (keeps_ofOption _ _).wp_bind (gives_anyway _) hnow (fun requested _ now hnow => ?_) hleft
  refine (keeps_reads starting_stable _).wp_bind (gives_anyway _) hnow (fun found _ now hnow => ?_)
    hleft
  refine (keeps_ofOption _ _).wp_bind (gives_anyway _) hnow (fun found _ now hnow => ?_) hleft
  obtain ⟨root, workspace⟩ := found
  refine (keeps_require _ _).wp_bind (gives_anyway _) hnow (fun _ _ now hnow => ?_) hleft
  rw [wp_bind, wp_reads, wp_bind, wp_ofOption]
  split
  · rename_i context hcontext
    have hopened := opened_of_activeRoomContext hcontext
    refine holds_stable steps _ _ ⟨hnow.fresh, hopened, fun launch checks isCancelled hmem => ?_⟩
    rw [hnow.events] at hmem
    cases hmem
  · exact starting_stable _ _ hnow

/-- At the start of a turn nothing has started. -/
theorem not_started_of_starting {host : Host} (h : Starting env host) (effect : TurnEffect) :
    ¬Started effect host := by
  rintro ⟨isCancelled, hmem⟩
  rw [h.events] at hmem
  cases hmem

/-- With the tools that are made the turn can begin. -/
theorem toolContexts_spec (request : TextTurnRequest) {now : Instant Host}
    (hnow : Starting env now.state) :
    wp (CommandExecution.others steps) (toolContexts env request)
      (fun contexts now => TurnHolds env contexts now.state) (fun _ now => Starting env now.state)
      (fun _ => False) now := by
  have hleft : ∀ (_ : AiDispatch.TextTurnError) (now : Instant Host),
      Starting env now.state → Starting env now.state := fun _ _ h => h
  -- Without a context for commands, nothing is started.
  have hwithout (workspace : Option WorkspaceToolContext) {host : Host} (h : Starting env host) :
      TurnHolds env { workspace, command := none } host :=
    ⟨nofun, fun _ effect _ => not_started_of_starting h effect⟩
  unfold toolContexts
  extract_lets afterWorkspace
  have hcommand (workspace : Option WorkspaceToolContext) {now : Instant Host}
      (hnow : Starting env now.state) :
      wp (CommandExecution.others steps) (afterWorkspace workspace)
        (fun contexts now => TurnHolds env contexts now.state) (fun _ now => Starting env now.state)
        (fun _ => False) now := by
    -- A turn that offers commands gets a context of its own, or none where that fails.
    dsimp only [afterWorkspace]
    split
    · rw [wp_bind, wp_attempt]
      refine wp_mono (contextForTurn_spec request hnow) (fun turn now hturn => ?_)
        (fun _ now h => hwithout workspace h) nofun
      refine ⟨fun context hcontext => ?_, nofun⟩
      obtain rfl := Option.some.inj hcontext
      exact hturn
    · exact hwithout workspace hnow
  -- The workspace is opened before the contexts are made.
  cases request.workspace with
  | none => exact hcommand none hnow
  | some workspace =>
    refine (keeps_reads starting_stable _).wp_bind (gives_anyway _) hnow
      (fun opens _ now hnow => ?_)
      hleft
    refine (keeps_require _ _).wp_bind (gives_anyway _) hnow (fun _ _ now hnow => ?_) hleft
    exact hcommand (some _) hnow

/-! ## A whole turn -/

/-- What holds throughout a turn with tools is kept by the other threads. -/
theorem turnHolds_stable : Stable (CommandExecution.others steps) (TurnHolds env contexts) := by
  refine fun moment host h => ⟨fun context hcontext => ?_, fun hnone effect hinstall => ?_⟩
  · exact holds_stable steps moment host (h.command context hcontext)
  · have hstable : Stable (CommandExecution.others steps) fun host => ¬Started effect host :=
      stable_others fun step host h => by cases step <;> exact h
    exact hstable moment host (h.withoutCommand hnone effect hinstall)

/-- An event that launches no install. -/
theorem TurnHolds.note {event : HostEvent} {host : Host} (h : TurnHolds env contexts host)
    (hevent : ∀ effect isCancelled, event = .started effect isCancelled →
      launchesInstall effect = false) : TurnHolds env contexts (host.note event) := by
  refine ⟨fun context hcontext => ?_, fun hnone effect hinstall => ?_⟩
  · refine (h.command context hcontext).note fun launch checks isCancelled heq hkind => ?_
    have hother := hevent _ _ heq
    rw [launchesInstall, hkind] at hother
    cases hother
  · rintro ⟨isCancelled, hmem⟩
    rcases List.mem_cons.mp hmem with rfl | hmem
    · rw [hevent effect isCancelled rfl] at hinstall
      cases hinstall
    · exact h.withoutCommand hnone effect hinstall ⟨isCancelled, hmem⟩

/-- Every tool call of the turn keeps it. -/
theorem turnHolds_keptByTurn (hcodec : env.codec.Lawful) :
    KeptByTurn env (CommandExecution.others steps) contexts (TurnHolds env contexts) where
  stable := turnHolds_stable
  sent message host h := h.note nofun
  call params threadId turnId answer hanswer := by
    have hkept : KeptBy (CommandExecution.others steps)
        (fun effect => launchesInstall effect = false) (TurnHolds env contexts) := by
      refine ⟨turnHolds_stable, fun effect host heffect h => h.note fun _ _ hevent => ?_⟩
      injection hevent with heq
      rwa [← heq]
    have hpermits : Permits contexts fun effect => launchesInstall effect = false := by
      refine ⟨fun effect hread => ?_, fun _ _ _ _ h => h, fun _ _ _ _ h => h⟩
      cases effect <;> first | rfl | cases hread
    have hinstall (context : CommandToolContext) (hcontext : contexts.command = some context)
        (directory packageName exactVersion : String) :
        Keeps (CommandExecution.others steps) (TurnHolds env contexts)
          (context.installNpmPackage env.toToolSurroundings directory
            packageName exactVersion) := by
      have hback {host : Host} (h : Holds env.toSurroundings context.turn host) :
          TurnHolds env contexts host := by
        refine ⟨fun other hother => ?_, fun hnone => ?_⟩
        · obtain rfl := Option.some.inj (hcontext.symm.trans hother)
          exact h
        · rw [hcontext] at hnone
          cases hnone
      intro now hnow
      exact wp_mono (holds_installNpmPackage hcodec directory packageName exactVersion now
        (hnow.command context hcontext)) (fun _ _ h => hback h) (fun _ _ h => hback h) nofun
    refine keeps_bind (keeps_mapError ?_) fun result => ?_
    · exact keeps_toolResult hkept hpermits hinstall params threadId turnId
    · exact keeps_bind (keeps_changes turnHolds_stable fun _ host h => h.note nofun) fun _ =>
        hanswer result

/-- Whatever the other threads do during a turn, an install that it launches is one that the owner
has allowed, in the session and for the workspace that the turn started with, and both are there at
the last checks before the launch. -/
theorem run_installs_consented (env : CodexSurroundings) (hcodec : env.codec.Lawful)
    (steps : ℕ → List OtherStep) (request : TextTurnRequest) (now : Instant Host)
    (hevents : now.state.events = []) (hfresh : Fresh env.toSurroundings now.state)
    {launch : CommandLaunch} {checks : LaunchChecks}
    (hlaunched : Started (.launched launch checks)
      (run env request (CommandExecution.others steps) now).2.state)
    (hkind : launch.kind = .npmPackageInstall) :
    ∃ contexts opened context plan directory,
      toolContexts env request (CommandExecution.others steps)
          (now.after (CommandExecution.others steps) now.state) = (.done contexts, opened) ∧
        contexts.command = some context ∧
          Covers env.toSurroundings context.turn launch checks plan directory := by
  have hstarting : Starting env now.state := ⟨hfresh, hevents⟩
  -- What is to be shown of the state at the end, however the turn ends.
  set covered : Host → Prop := fun host => Started (.launched launch checks) host →
    ∃ contexts opened context plan directory,
      toolContexts env request (CommandExecution.others steps)
          (now.after (CommandExecution.others steps) now.state) = (.done contexts, opened) ∧
        contexts.command = some context ∧
          Covers env.toSurroundings context.turn launch checks plan directory with hcovered
  have hnothing {host : Host} (h : Starting env host) : covered host := fun hstarted =>
    absurd hstarted (not_started_of_starting h _)
  have hrun : wp (CommandExecution.others steps) (run env request) (fun _ now => covered now.state)
      (fun _ now => covered now.state) (fun _ => False) now := by
    unfold run checkCancelled
    rw [wp_bind, wp_bind, wp_reads, wp_require]
    have hafter : Starting env (now.after (CommandExecution.others steps) now.state).state :=
      starting_stable _ _ hstarting
    split
    · rw [wp_bind]
      refine wp_mono (wp_run (toolContexts_spec request hafter)) (fun contexts opened h => ?_)
        (fun _ _ h => hnothing h) nofun
      obtain ⟨hcontexts, hholds⟩ := h
      have hdone {host : Host} (h : TurnHolds env contexts host) : covered host := by
        rintro ⟨isCancelled, hmem⟩
        cases hcommand : contexts.command with
        | none =>
          have hinstall : launchesInstall (.launched launch checks) = true := by
            rw [launchesInstall, hkind]
            rfl
          exact absurd ⟨isCancelled, hmem⟩ (h.withoutCommand hcommand _ hinstall)
        | some context =>
          obtain ⟨plan, directory, hcovers⟩ :=
            (h.command context hcommand).covered launch checks isCancelled hmem hkind
          exact ⟨contexts, opened, context, plan, directory, hcontexts, hcommand, hcovers⟩
      have hkept := @turnHolds_keptByTurn env steps contexts hcodec
      refine (keeps_openThread hkept request).wp_bind (gives_anyway _) hholds
        (fun found _ now hnow => ?_) fun _ _ h => hdone h
      exact wp_mono (keeps_runThread hkept request found.1 found.2 now hnow) (fun _ _ h => hdone h)
        (fun _ _ h => hdone h) nofun
    · exact hnothing hafter
  unfold wp at hrun
  rcases hend : run env request (CommandExecution.others steps) now with ⟨_ | _ | _, after⟩
  · rw [hend] at hrun hlaunched
    exact hrun hlaunched
  · rw [hend] at hrun hlaunched
    exact hrun hlaunched
  · rw [hend] at hrun
    exact hrun.elim

namespace Sample

/-- The codec of the example is lawful. -/
theorem codec_lawful : codec.Lawful where
  request := Serde.table_roundTrips (by decide) (by decide)
  npmPackageInstall := Serde.table_roundTrips (by decide +kernel) (by decide +kernel)
  distinct _ _ _ := rfl

/-- Whether the event launches an install. -/
def isInstall : HostEvent → Bool
  | .started (.launched launch _) _ => launch.kind == .npmPackageInstall
  | _ => false

/-- An install was launched when one of the events says so. -/
theorem exists_install {host : Host} (h : host.events.any isInstall = true) :
    ∃ launch checks, Started (.launched launch checks) host ∧ launch.kind = .npmPackageInstall := by
  obtain ⟨event, hmem, hevent⟩ := List.any_eq_true.mp h
  unfold isInstall at hevent
  split at hevent
  · rename_i launch checks isCancelled
    exact ⟨launch, checks, ⟨isCancelled, hmem⟩, eq_of_beq hevent⟩
  · cases hevent

/-- The threads of the turn's calls have done nothing where only others have acted. -/
theorem fresh_of_others {before : List CommandConfirmations.Action} {host : Host}
    (h : host.actions = before.map otherAction) : Fresh env.toSurroundings host := by
  intro n _
  unfold Host.confirmations
  rw [h]
  clear h
  induction before using List.reverseRecOn with
  | nil => rfl
  | append_singleton before action ih =>
    rw [List.map_append, List.map_singleton, CommandConfirmations.run_append_singleton,
      CommandConfirmations.step_threads _ _ actor?_otherAction]
    exact ih

/-- At the start no call has been made. -/
theorem fresh_start : Fresh installing.toSurroundings start.state :=
  @fresh_of_others _ [.beginRoomSession 0 "room" workspace, .advance 0 ⟨none, false⟩] _ rfl

/-- An install of `left-pad` is launched once the owner has allowed it. -/
theorem left_pad_consented : ∃ launch checks contexts opened context plan directory,
    launch.kind = .npmPackageInstall ∧
      toolContexts installing (request .readWrite) (CommandExecution.others stoppedLater)
          (start.after (CommandExecution.others stoppedLater) start.state) =
        (.done contexts, opened) ∧
      contexts.command = some context ∧
        Covers installing.toSurroundings context.turn launch checks plan directory := by
  obtain ⟨launch, checks, hlaunched, hkind⟩ :
      ∃ launch checks, Started (.launched launch checks)
        (run installing (request .readWrite) (CommandExecution.others stoppedLater) start).2.state ∧
          launch.kind = .npmPackageInstall := exists_install (by decide +kernel)
  obtain ⟨contexts, opened, context, plan, directory, hcontexts, hcommand, hcovers⟩ :=
    run_installs_consented installing codec_lawful stoppedLater (request .readWrite) start rfl
      fresh_start hlaunched hkind
  exact ⟨launch, checks, contexts, opened, context, plan, directory,
    hkind, hcontexts, hcommand, hcovers⟩

end Sample

end Mio.Desktop.CodexAppServer
