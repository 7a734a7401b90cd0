import Mio.Desktop.CommandConfirmationRuns

/-!
# What a consent rests on

The laws here hold in every run, also in one where the registry has no room left for its terminal
records. A scope is backed by an authorization that is ready or by a grant. Only a decision of the
owner on a pending request of that scope backs it (`backed_run`).

A session that is no longer the one of its room is not active again (`Gone`). A call of
`wait_for_room_authorization` that is authorized has the consent of the owner for the scope that it
asked for, in the session that was active when it asked (`Asking`).
-/

namespace Mio.Desktop.CommandConfirmations

open Library Broker Std
open RoomWorkspace (AvailableRoomWorkspace)

/-! ## Backed scopes -/

/-- A command of the scope can be authorized without another decision. -/
def Backed (registry : CommandConfirmationRegistry) (scope : CommandConfirmationScope) : Prop :=
  (∃ (requestId : String) (authorization : ReadyAuthorization),
    registry.ready[requestId]? = some authorization ∧ authorization.scope = scope) ∨
    scope ∈ registry.roomSessionGrants

section Registry

variable {registry after : CommandConfirmationRegistry} {scope : CommandConfirmationScope}

/-- Only a decision on a pending request backs a scope. -/
theorem backed_of_step {event : RegistryEvent} (hstep : RegistryStep registry event after)
    (h : Backed after scope) :
    Backed registry scope ∨
      ∃ requestId, Allows requestId scope event ∧ registry.pending[requestId]? = some scope := by
  rcases h with ⟨requestId, authorization, hready, rfl⟩ | hgrant
  · rcases hstep.ready hready with hbefore | ⟨hallows, hpending⟩ | ⟨-, hgrant⟩
    · exact .inl (.inl ⟨requestId, authorization, hbefore, rfl⟩)
    · exact .inr ⟨requestId, hallows, hpending⟩
    · exact .inl (.inr hgrant)
  · rcases hstep.grant hgrant with ⟨hbefore, -⟩ | ⟨hallows, requestId, hpending, rfl⟩
    · exact .inl (.inr hbefore)
    · exact .inr ⟨requestId, ⟨_, _, .roomSession hallows, rfl⟩, hpending⟩

/-- A step that decides nothing backs nothing. -/
theorem backed_of_quiet {event : RegistryEvent} (hstep : RegistryStep registry event after)
    (hquiet : ∀ requestId, ¬Allows requestId scope event) (h : Backed after scope) :
    Backed registry scope := by
  rcases backed_of_step hstep h with h | ⟨requestId, hallows, -⟩
  · exact h
  · exact absurd hallows (hquiet requestId)

/-- Registering a request backs no scope. -/
theorem backed_of_register {request : CommandConfirmationRequest}
    (h : Backed (registry.register request).2 scope) : Backed registry scope := by
  refine backed_of_quiet (register_step registry request) (fun requestId hallows => ?_) h
  obtain ⟨_, _, _, hevent⟩ := hallows
  cases hevent

/-- Using an authorization up backs no scope. -/
theorem backed_of_consume {requestId : String} {expectedScope : CommandConfirmationScope}
    (h : Backed (registry.consumeAuthorization requestId expectedScope).2 scope) :
    Backed registry scope := by
  refine backed_of_quiet (consumeAuthorization_step registry requestId expectedScope)
    (fun requestId hallows => ?_) h
  obtain ⟨_, _, _, hevent⟩ := hallows
  cases hevent

/-- A timeout backs no scope. -/
theorem backed_of_timeout {requestId : String}
    (h : Backed (registry.resolve requestId .timedOut).2 scope) : Backed registry scope := by
  refine backed_of_quiet (resolve_step registry requestId .timedOut) (fun requestId hallows => ?_) h
  obtain ⟨decision, _, hallowing, hevent⟩ := hallows
  injection hevent with hcall
  injection hcall with _ hdecision
  subst hdecision
  cases hallowing

/-- The end of a session backs no scope. -/
theorem backed_of_endSession {sessionId : String}
    (h : Backed (registry.withoutSession sessionId) scope) : Backed registry scope := by
  refine backed_of_quiet (.endSession sessionId 0) (fun requestId hallows => ?_) h
  obtain ⟨_, _, _, hevent⟩ := hallows
  cases hevent

end Registry

section State

variable {state : DesktopCommandConfirmationState} {scope : CommandConfirmationScope}

/-- Taking a room's session away backs no scope. -/
theorem backed_of_withoutRoom {roomId : String}
    (h : Backed (state.withoutRoom roomId).registry scope) : Backed state.registry scope := by
  unfold DesktopCommandConfirmationState.withoutRoom at h
  split at h
  · exact h
  · exact backed_of_endSession h

/-- The end of a room's session backs no scope. -/
theorem backed_of_endRoomSession {roomId : String}
    (h : Backed (state.endRoomSession roomId).2.registry scope) : Backed state.registry scope := by
  rcases endRoomSession_cases roomId state with heq | heq
  · rwa [heq] at h
  · rw [heq] at h
    exact backed_of_withoutRoom h

/-- A waiter that takes its authorization backs no scope. -/
theorem backed_of_consumed (state : DesktopCommandConfirmationState)
    {request : CommandConfirmationRequest}
    (h : Backed (state.consumed request).2.registry scope) : Backed state.registry scope := by
  unfold DesktopCommandConfirmationState.consumed at h
  have hconsume := @backed_of_consume state.registry scope request.requestId request.scope
  generalize state.registry.consumeAuthorization request.requestId request.scope =
    consumed at h hconsume
  rcases consumed with ⟨_ | _, registry⟩
  · exact hconsume h
  · exact hconsume h

/-- A waiter that registers its request backs no scope. -/
theorem backed_of_registerWaiter {session : DesktopRoomCommandSession}
    {request : CommandConfirmationRequest}
    (h : Backed (state.registerWaiter session request).2.registry scope) :
    Backed state.registry scope := by
  unfold DesktopCommandConfirmationState.registerWaiter at h
  split_ifs at h
  · exact h
  · exact h
  · have hregister := @backed_of_register state.registry scope request
    generalize state.registry.register request = registered at h hregister
    rcases registered with ⟨_ | _ | _ | _, registry⟩
    · exact hregister h
    · exact hregister h
    · exact hregister h
    · exact hregister (backed_of_consumed { state with registry } h)

/-- A waiter that looks for its resolution backs no scope. -/
theorem backed_of_checkResolution {request : CommandConfirmationRequest} {expired : Bool}
    (h : Backed (state.checkResolution request expired).2.registry scope) :
    Backed state.registry scope := by
  unfold DesktopCommandConfirmationState.checkResolution at h
  split at h
  · dsimp only at h
    split at h
    · exact backed_of_consumed { state with
        resolutions := state.resolutions.erase request.requestId
        waitingSessions := state.waitingSessions.erase request.requestId } h
    · exact h
    · exact h
  · split_ifs at h
    · exact h
    · have htimeout := @backed_of_timeout state.registry scope request.requestId
      dsimp only at h
      generalize state.registry.resolve request.requestId .timedOut = resolved at h htimeout
      rcases resolved with ⟨_ | _ | _, registry⟩
      · exact htimeout h
      · exact htimeout h
      · exact htimeout h

end State

/-! ## Runs -/

section Runs

variable {processId : UInt32} {system : System} {scope : CommandConfirmationScope}

/-- The same for the whole step of the waiter. -/
theorem backed_of_checkWaiter (system : System) {thread : ℕ} {session : DesktopRoomCommandSession}
    {request : CommandConfirmationRequest} {expired : Bool}
    (h : Backed (system.checkWaiter thread session request expired).state.registry scope) :
    Backed system.state.registry scope := by
  have hcheck := @backed_of_checkResolution system.state scope request expired
  unfold System.checkWaiter at h
  generalize system.state.checkResolution request expired = checked at h hcheck
  rcases checked with ⟨_ | _, state⟩
  · exact hcheck h
  · exact hcheck h

/-- Giving a request its number backs no scope. -/
theorem backed_of_numberRequest {thread : ℕ} {session : DesktopRoomCommandSession}
    {command : ActionTimeCommand} {targetLabel : String}
    (h : Backed (system.numberRequest processId thread session command targetLabel).state.registry
      scope) : Backed system.state.registry scope := by
  unfold System.numberRequest at h
  split at h
  · exact h
  · dsimp only at h
    split at h
    · exact h
    · split at h <;> exact h

/-- No step of a thread backs a scope. -/
theorem backed_of_advance {thread : ℕ} {seen : Seen}
    (h : Backed (system.advance processId thread seen).state.registry scope) :
    Backed system.state.registry scope := by
  unfold System.advance at h
  split at h
  · exact h
  · exact h
  · rw [System.setThread_state, replaceRoomSession_eq] at h
    exact backed_of_withoutRoom h
  · split at h <;> exact h
  · split at h
    · exact h
    · split_ifs at h <;> exact h
  · rename_i roomId _ _
    have hend := @backed_of_endRoomSession system.state scope roomId
    generalize system.state.endRoomSession roomId = ended at h hend
    rcases ended with ⟨_ | _, state⟩
    · exact hend h
    · exact hend h
  · exact backed_of_numberRequest h
  · rename_i session request _
    have hregister := @backed_of_registerWaiter system.state scope session request
    generalize system.state.registerWaiter session request = registered at h hregister
    rcases registered with ⟨_ | _, state⟩
    · exact hregister (backed_of_checkWaiter { system with state } h)
    · exact hregister h
  · exact backed_of_checkWaiter system h

/-- The owner has allowed a pending request of the scope. -/
def Consented (processId : UInt32) (actions : List Action) (scope : CommandConfirmationScope) :
    Prop :=
  ∃ requestId decision, Allowed processId actions requestId scope decision

/-- Consent stays given. -/
theorem Consented.mono {actions later : List Action} (h : Consented processId actions scope)
    (hlater : actions <+: later) : Consented processId later scope := by
  obtain ⟨requestId, decision, hallowed⟩ := h
  exact ⟨requestId, decision, hallowed.mono hlater⟩

/-- A decision backs a scope only when the owner allows a pending request of it. -/
theorem backed_of_resolveForRoom {actions : List Action} {roomId requestId : String}
    {decision : DesktopConfirmationDecision}
    (h : Backed ((System.run processId actions).state.resolveForRoom roomId requestId
      decision).2.registry scope) :
    Backed (System.run processId actions).state.registry scope ∨
      Consented processId (actions ++ [.resolveForRoom roomId requestId decision]) scope := by
  rcases resolveForRoom_registry roomId requestId decision (System.run processId actions).state
    with heq | ⟨outcome, hresult, hresolve⟩
  · rw [heq] at h
    exact .inl h
  · have hstep := resolve_step (System.run processId actions).state.registry requestId
      (mapDecision decision)
    rw [hresolve] at hstep
    refine (backed_of_step hstep h).imp_right ?_
    rintro ⟨allowedId, ⟨allowing, lifetime, -, hevent⟩, hpending⟩
    injection hevent with hcall hanswer
    injection hcall with hid
    injection hanswer with hok
    injection hok with houtcome
    subst hid houtcome
    exact ⟨requestId, decision, actions, roomId, List.prefix_refl _, hpending, hresult⟩

/-- A scope is backed only if the owner has allowed a request of it. -/
theorem backed_run {actions : List Action}
    (h : Backed (System.run processId actions).state.registry scope) :
    Consented processId actions scope := by
  -- By induction on the actions: only an answer of the owner can make a scope backed.
  induction actions using List.reverseRecOn with
  | nil =>
    rcases h with ⟨requestId, authorization, hready, -⟩ | hgrant
    · simp [System.run, System.initial, DesktopCommandConfirmationState.empty,
        CommandConfirmationRegistry.empty] at hready
    · simp [System.run, System.initial, DesktopCommandConfirmationState.empty,
        CommandConfirmationRegistry.empty] at hgrant
  | append_singleton actions action ih =>
    have hpre := List.prefix_append actions [action]
    have hbefore (hbacked : Backed (System.run processId actions).state.registry scope) :
        Consented processId (actions ++ [action]) scope := (ih hbacked).mono hpre
    rw [run_append_singleton] at h
    cases action with
    | beginRoomSession thread roomId workspace =>
      apply hbefore
      unfold System.step System.beginRoomSession at h
      dsimp only at h
      split at h
      · split_ifs at h
        · exact h
        · split at h <;> exact h
      · exact h
    | waitForRoomAuthorization thread roomId command targetLabel =>
      apply hbefore
      unfold System.step at h
      dsimp only at h
      split at h
      · split_ifs at h <;> exact h
      · exact h
    | advance thread seen => exact hbefore (backed_of_advance h)
    | resolveForRoom roomId requestId decision =>
      rcases backed_of_resolveForRoom h with hbacked | hconsented
      · exact hbefore hbacked
      · exact hconsented
    -- A timeout is a denial, which makes no scope backed.
    | timeout requestId =>
      apply hbefore
      have htimeout :=
        @backed_of_timeout (System.run processId actions).state.registry scope requestId
      unfold System.step DesktopCommandConfirmationState.timeout
        DesktopCommandConfirmationState.applyDecision at h
      dsimp only at h
      generalize (System.run processId actions).state.registry.resolve requestId .timedOut =
        resolved at h htimeout
      rcases resolved with ⟨_ | _, registry⟩
      · exact htimeout h
      · exact htimeout h
    | endRoomSession roomId => exact hbefore (backed_of_endRoomSession h)

end Runs

/-! ## Sessions that are over -/

/-- The thread that takes the action, where that is one thread. -/
def actor? : Action → Option ℕ
  | .beginRoomSession thread _ _ | .waitForRoomAuthorization thread _ _ _ | .advance thread _ =>
    some thread
  | .resolveForRoom _ _ _ | .timeout _ | .endRoomSession _ => none

/-- The session has been opened, so that no thread opens it. -/
structure Opened (processId : UInt32) (system : System) (session : DesktopRoomCommandSession) :
    Prop where
  numbered : ∃ number < system.nextSessionSequence,
    session.sessionId = sessionIdentifier processId number
  opening : ∀ thread, system.threads thread ≠ .opening session

/-- The session has been opened, and it is not the one of its room any more. -/
structure Gone (processId : UInt32) (system : System) (session : DesktopRoomCommandSession) :
    Prop where
  opened : Opened processId system session
  inactive : ¬Active system.state session

section Sessions

variable {processId : UInt32} {system : System} {session : DesktopRoomCommandSession}

/-- An active session has been opened. -/
theorem opened_of_active (h : Sessions processId system) (hactive : Active system.state session) :
    Opened processId system session where
  numbered := h.numbered session (.inl (.inl hactive))
  opening thread hthread := (h.opening thread session hthread).1 (.inl hactive)

/-- What a step of a thread does to the others and to the sessions: the only session that it makes
active is the one that the thread was opening. -/
structure StepsAlone (system : System) (thread : ℕ) (system' : System) : Prop where
  threads : ∀ other, other ≠ thread → system'.threads other = system.threads other
  sequence : system'.nextSessionSequence = system.nextSessionSequence
  opening : ∀ session, system'.threads thread = .opening session →
    system.threads thread = .opening session
  active : ∀ session, Active system'.state session →
    Active system.state session ∨ system.threads thread = .opening session

/-- A thread that does not move steps alone. -/
theorem stepsAlone_refl (system : System) (thread : ℕ) : StepsAlone system thread system :=
  ⟨fun _ _ => rfl, rfl, fun _ h => h, fun _ h => .inl h⟩

/-- A thread that moves on without opening a session steps alone. -/
theorem stepsAlone_setThread {thread number : ℕ} {next : Thread}
    {state : DesktopCommandConfirmationState} (hnext : ∀ session, next ≠ .opening session)
    (hactive : ∀ session, Active state session →
      Active system.state session ∨ system.threads thread = .opening session) :
    StepsAlone system thread
      ({ system with state, nextRequestSequence := number }.setThread thread next) where
  threads other hother := by rw [System.setThread_threads, if_neg hother]
  sequence := rfl
  opening session hopening := by
    rw [System.setThread_threads, if_pos rfl] at hopening
    exact absurd hopening (hnext session)
  active := hactive

/-- A step that leaves the sessions of the rooms as they are. -/
theorem stepsAlone_of_rooms {thread number : ℕ} {next : Thread}
    {state : DesktopCommandConfirmationState} (hnext : ∀ session, next ≠ .opening session)
    (hrooms : state.roomSessions = system.state.roomSessions) :
    StepsAlone system thread
      ({ system with state, nextRequestSequence := number }.setThread thread next) := by
  refine stepsAlone_setThread hnext fun session hactive => .inl ?_
  rwa [Active, ← hrooms]

/-- A session that is active after a room's was taken away was active before. -/
theorem active_of_withoutRoom {roomId : String} {state : DesktopCommandConfirmationState}
    (h : Active (state.withoutRoom roomId) session) : Active state session :=
  ((withoutRoom_rooms roomId state session.roomId session).mp h).2

/-- A session that is active after a room's ended was active before. -/
theorem active_of_endRoomSession {roomId : String} {state : DesktopCommandConfirmationState}
    (h : Active (state.endRoomSession roomId).2 session) : Active state session := by
  rcases endRoomSession_cases roomId state with heq | heq
  · rwa [heq] at h
  · rw [heq] at h
    exact active_of_withoutRoom h

/-- A waiter that looks for its resolution steps alone. -/
theorem checkWaiter_stepsAlone {thread : ℕ} {request : CommandConfirmationRequest}
    {expired : Bool} {state : DesktopCommandConfirmationState}
    (hrooms : state.roomSessions = system.state.roomSessions) :
    StepsAlone system thread
      ({ system with state }.checkWaiter thread session request expired) := by
  have hcheck := checkResolution_rooms request expired state
  unfold System.checkWaiter
  dsimp only
  generalize state.checkResolution request expired = checked at hcheck
  rcases checked with ⟨_ | result, state'⟩
  · exact stepsAlone_of_rooms nofun (hcheck.trans hrooms)
  · exact stepsAlone_of_rooms nofun (hcheck.trans hrooms)

/-- Every step of a thread is alone. -/
theorem advance_stepsAlone (processId : UInt32) (system : System) (thread : ℕ) (seen : Seen) :
    StepsAlone system thread (system.advance processId thread seen) := by
  unfold System.advance
  -- One case for each phase; only the opening of a session makes one active.
  split
  · exact stepsAlone_refl system thread
  · exact stepsAlone_refl system thread
  · rename_i opened hthread
    refine stepsAlone_setThread nofun fun session hactive => ?_
    rw [replaceRoomSession_eq] at hactive
    rcases getElem?_insert_eq_some.mp hactive with ⟨-, rfl⟩ | ⟨-, hactive⟩
    · exact .inr hthread
    · exact .inl (active_of_withoutRoom hactive)
  · split <;> exact stepsAlone_of_rooms nofun rfl
  · split
    · exact stepsAlone_of_rooms nofun rfl
    · split_ifs <;> exact stepsAlone_of_rooms nofun rfl
  -- The end of a session leaves those of the other rooms.
  · rename_i roomId _ _
    have hended (session : DesktopRoomCommandSession) :=
      @active_of_endRoomSession session roomId system.state
    generalize system.state.endRoomSession roomId = ended at hended
    rcases ended with ⟨_ | _, state⟩
    · exact stepsAlone_setThread nofun fun session hactive => .inl (hended session hactive)
    · exact stepsAlone_setThread nofun fun session hactive => .inl (hended session hactive)
  · unfold System.numberRequest
    split
    · exact stepsAlone_of_rooms nofun rfl
    · dsimp only
      split
      · exact stepsAlone_of_rooms nofun rfl
      · split <;> exact stepsAlone_of_rooms nofun rfl
  · rename_i session request _
    have hrooms := registerWaiter_rooms session request system.state
    generalize system.state.registerWaiter session request = registered at hrooms
    rcases registered with ⟨_ | result, state⟩
    · exact checkWaiter_stepsAlone hrooms
    · exact stepsAlone_of_rooms nofun hrooms
  · exact checkWaiter_stepsAlone rfl

/-- An action changes no thread but its own. -/
theorem step_threads (processId : UInt32) (system : System) {action : Action} {thread : ℕ}
    (h : actor? action ≠ some thread) :
    (system.step processId action).threads thread = system.threads thread := by
  cases action with
  | beginRoomSession other roomId workspace =>
    have hne : thread ≠ other := fun heq => h (by rw [heq]; rfl)
    unfold System.step System.beginRoomSession
    dsimp only
    split
    · split_ifs
      · rfl
      · split
        · rfl
        · rw [System.setThread_threads, if_neg hne]
    · rfl
  | waitForRoomAuthorization other roomId command targetLabel =>
    have hne : thread ≠ other := fun heq => h (by rw [heq]; rfl)
    unfold System.step
    dsimp only
    split
    · split_ifs <;> rw [System.setThread_threads, if_neg hne]
    · rfl
  | advance other seen =>
    have hne : thread ≠ other := fun heq => h (by rw [heq]; rfl)
    exact (advance_stepsAlone processId system other seen).threads thread hne
  | resolveForRoom | timeout | endRoomSession => rfl

/-- A session that has been opened stays so. -/
theorem Opened.step (h : Opened processId system session) (action : Action) :
    Opened processId (system.step processId action) session := by
  obtain ⟨⟨number, hlt, hid⟩, hopening⟩ := h
  cases action with
  | beginRoomSession thread roomId workspace =>
    unfold System.step System.beginRoomSession
    dsimp only
    split
    -- A session is opened only if there is a next number, and that number is above all that were
    -- given.
    · split_ifs
      · exact ⟨⟨number, hlt, hid⟩, hopening⟩
      · split
        · exact ⟨⟨number, hlt, hid⟩, hopening⟩
        · rename_i next hnext
          have hsucc : next = system.nextSessionSequence + 1 := by
            unfold checkedSucc at hnext
            split at hnext
            · exact (Option.some.inj hnext).symm
            · cases hnext
          have hlater : number < next := by omega
          refine ⟨⟨number, hlater, hid⟩, fun other hother => ?_⟩
          rw [System.setThread_threads] at hother
          split at hother
          · -- The session that is opened now has the next number.
            injection hother with hother
            rw [← hother] at hid
            have hsame := sessionIdentifier_inj hid
            omega
          · exact hopening other hother
    · exact ⟨⟨number, hlt, hid⟩, hopening⟩
  | waitForRoomAuthorization thread roomId command targetLabel =>
    -- What a waiting thread is in is no opening.
    unfold System.step
    dsimp only
    split
    · split_ifs
      all_goals
        refine ⟨⟨number, hlt, hid⟩, fun other hother => ?_⟩
        rw [System.setThread_threads] at hother
        split at hother
        · cases hother
        · exact hopening other hother
    · exact ⟨⟨number, hlt, hid⟩, hopening⟩
  -- Any other thread than the one that steps is as it was.
  | advance thread seen =>
    have halone := advance_stepsAlone processId system thread seen
    refine ⟨⟨number, ?_, hid⟩, fun other hother => ?_⟩
    · exact hlt.trans_eq halone.sequence.symm
    · by_cases heq : other = thread
      · subst heq
        exact hopening other (halone.opening session hother)
      · exact hopening other ((halone.threads other heq).symm.trans hother)
  | resolveForRoom | timeout | endRoomSession => exact ⟨⟨number, hlt, hid⟩, hopening⟩

/-- A session that is gone is not active again. -/
theorem Gone.step (h : Gone processId system session) (action : Action) :
    Gone processId (system.step processId action) session := by
  -- A session that is gone can only come back by being opened, and that it was once.
  refine ⟨h.opened.step action, fun hactive => h.inactive ?_⟩
  cases action with
  | beginRoomSession thread roomId workspace =>
    unfold System.step System.beginRoomSession at hactive
    dsimp only at hactive
    split at hactive
    · split_ifs at hactive
      · exact hactive
      · split at hactive <;> exact hactive
    · exact hactive
  | waitForRoomAuthorization thread roomId command targetLabel =>
    unfold System.step at hactive
    dsimp only at hactive
    split at hactive
    · split_ifs at hactive <;> exact hactive
    · exact hactive
  | advance thread seen =>
    rcases (advance_stepsAlone processId system thread seen).active session hactive with hbefore |
      hopening
    · exact hbefore
    · exact absurd hopening (h.opened.opening thread)
  | resolveForRoom roomId requestId decision =>
    rcases resolveForRoom_cases roomId requestId decision system.state with heq | heq
    · simpa only [System.step, heq] using hactive
    · have hrooms := applyDecision_rooms requestId (mapDecision decision) system.state
      unfold System.step Active at hactive
      dsimp only at hactive
      rwa [heq, hrooms] at hactive
  | timeout requestId =>
    have hrooms := applyDecision_rooms requestId .timedOut system.state
    unfold System.step Active DesktopCommandConfirmationState.timeout at hactive
    dsimp only at hactive
    rwa [hrooms] at hactive
  | endRoomSession roomId => exact active_of_endRoomSession hactive

end Sessions

/-! ## A call that asks -/

/-- The request asks for the command with the label, in a session of the room. -/
structure RequestFor (roomId : String) (command : ActionTimeCommand) (targetLabel : String)
    (session : DesktopRoomCommandSession) (scope : CommandConfirmationScope) : Prop where
  room : session.roomId = roomId
  inSession : InSession scope session
  command : scope.command = command
  targetLabel : scope.targetLabel = targetLabel

/-- The session is the one that is meant, unless that one is gone. -/
def SameUnlessGone (processId : UInt32) (system : System)
    (meant session : DesktopRoomCommandSession) :
    Prop :=
  session = meant ∨ Gone processId system meant

/-- The owner has allowed what the call asked for. -/
def Approved (processId : UInt32) (actions : List Action) (meant : DesktopRoomCommandSession)
    (command : ActionTimeCommand) (targetLabel : String) : Prop :=
  ∃ session scope, RequestFor meant.roomId command targetLabel session scope ∧
    SameUnlessGone processId (System.run processId actions) meant session ∧
      Consented processId actions scope

/-- Where a call of `wait_for_room_authorization` is that was made while a session of its room was
active. -/
def Asking (processId : UInt32) (actions : List Action) (meant : DesktopRoomCommandSession)
    (command : ActionTimeCommand) (targetLabel : String) : Thread → Prop
  | .idle | .opening _ => False
  | .looking roomId asked label => roomId = meant.roomId ∧ asked = command ∧ label = targetLabel
  | .checking _ session asked label | .numbering session asked label =>
    session.roomId = meant.roomId ∧ asked = command ∧ label = targetLabel
  | .ending _ _ => True
  | .registering session request =>
    RequestFor meant.roomId command targetLabel session request.scope
  | .waiting session request =>
    RequestFor meant.roomId command targetLabel session request.scope ∧
      SameUnlessGone processId (System.run processId actions) meant session
  | .returned _ result =>
    ∀ authorization, result = .ok (.authorized authorization) →
      Approved processId actions meant command targetLabel

section Asking

variable {processId : UInt32} {actions : List Action} {meant : DesktopRoomCommandSession}
  {command : ActionTimeCommand} {targetLabel : String}

/-- A session that is gone does not come back. -/
theorem SameUnlessGone.step {system : System} {session : DesktopRoomCommandSession}
    (h : SameUnlessGone processId system meant session) (action : Action) :
    SameUnlessGone processId (system.step processId action) meant session :=
  h.imp_right fun hgone => hgone.step action

/-- What the owner has allowed stays allowed. -/
theorem Approved.step (h : Approved processId actions meant command targetLabel) (action : Action) :
    Approved processId (actions ++ [action]) meant command targetLabel := by
  obtain ⟨session, scope, hrequest, hsame, hconsented⟩ := h
  refine ⟨session, scope, hrequest, ?_, hconsented.mono (List.prefix_append actions [action])⟩
  rw [run_append_singleton]
  exact hsame.step action

/-- Where a call is does not depend on what happens besides. -/
theorem Asking.mono {thread : Thread}
    (h : Asking processId actions meant command targetLabel thread)
    (action : Action) :
    Asking processId (actions ++ [action]) meant command targetLabel thread := by
  cases thread with
  | waiting session request =>
    refine ⟨h.1, ?_⟩
    rw [run_append_singleton]
    exact h.2.step action
  | returned requestId result =>
    exact fun authorization hresult => (h authorization hresult).step action
  | _ => exact h

/-- The scope of a command in a session asks for that command. -/
theorem requestFor_of_scope {session : DesktopRoomCommandSession} {scope : CommandConfirmationScope}
    (hroom : session.roomId = meant.roomId) (h : session.scope command targetLabel = .ok scope) :
    RequestFor meant.roomId command targetLabel session scope := by
  unfold DesktopRoomCommandSession.scope CommandConfirmationScope.new at h
  split at h
  · obtain rfl := Except.ok.inj h
    exact ⟨hroom, ⟨rfl, rfl, rfl⟩, rfl, rfl⟩
  · cases h

/-- An authorization that is consumed was backed. -/
theorem backed_of_authorized (state : DesktopCommandConfirmationState)
    {request : CommandConfirmationRequest} {authorization : CommandAuthorization}
    (h : (state.consumed request).1 = .ok (.authorized authorization)) :
    Backed state.registry request.scope := by
  unfold DesktopCommandConfirmationState.consumed at h
  have hconsume := @consumeAuthorization_eq_ok state.registry request.requestId request.scope
  generalize state.registry.consumeAuthorization request.requestId request.scope =
    consumed at h hconsume
  rcases consumed with ⟨e | consumed, registry⟩
  · cases h
  · obtain ⟨-, -, hready⟩ := hconsume rfl
    exact .inl ⟨_, _, hready, rfl⟩

/-- A waiter that is authorized at once has a scope that was backed. -/
theorem backed_of_registerWaiter_authorized {state : DesktopCommandConfirmationState}
    {session : DesktopRoomCommandSession} {request : CommandConfirmationRequest}
    {authorization : CommandAuthorization}
    (h : (state.registerWaiter session request).1 = some (.ok (.authorized authorization))) :
    Backed state.registry request.scope := by
  unfold DesktopCommandConfirmationState.registerWaiter at h
  split_ifs at h
  · cases h
  · cases h
  · have hregister := @backed_of_register state.registry request.scope request
    generalize state.registry.register request = registered at h hregister
    rcases registered with ⟨_ | _ | _ | _, registry⟩
    · cases h
    · cases h
    · cases h
    · exact hregister (backed_of_authorized { state with registry } (Option.some.inj h))

/-- A waiter that is authorized later has a scope that was backed. -/
theorem backed_of_checkResolution_authorized {state : DesktopCommandConfirmationState}
    {request : CommandConfirmationRequest} {expired : Bool} {authorization : CommandAuthorization}
    (h : (state.checkResolution request expired).1 = some (.ok (.authorized authorization))) :
    Backed state.registry request.scope := by
  unfold DesktopCommandConfirmationState.checkResolution at h
  split at h
  · dsimp only at h
    split at h
    · exact backed_of_authorized { state with
        resolutions := state.resolutions.erase request.requestId
        waitingSessions := state.waitingSessions.erase request.requestId } (Option.some.inj h)
    · cases h
    · cases h
  · split at h
    · cases h
    · dsimp only at h
      split at h <;> cases h

/-- A request is registered in the session of its room. -/
theorem registerWaiter_active {state : DesktopCommandConfirmationState}
    {session : DesktopRoomCommandSession} {request : CommandConfirmationRequest}
    (h : (state.registerWaiter session request).1 ≠ some (.ok .roomSessionEnded)) :
    Active state session := by
  unfold DesktopCommandConfirmationState.registerWaiter at h
  by_contra hinactive
  have hother : (state.roomSessions[session.roomId]? != some session) = true := by
    simpa [Active] using hinactive
  rw [hother] at h
  exact h rfl

/-- A thread that waits goes on waiting, or it returns. -/
theorem asking_checkWaiter {system : System} {thread : ℕ} {session : DesktopRoomCommandSession}
    {request : CommandConfirmationRequest} {expired : Bool}
    (hrequest : RequestFor meant.roomId command targetLabel session request.scope)
    (hsame : SameUnlessGone processId (System.run processId actions) meant session)
    (hbacked : Backed system.state.registry request.scope →
      Consented processId actions request.scope) :
    Asking processId actions meant command targetLabel
      ((system.checkWaiter thread session request expired).threads thread) := by
  have hauthorized := @backed_of_checkResolution_authorized system.state request expired
  unfold System.checkWaiter
  generalize system.state.checkResolution request expired = checked at hauthorized
  rcases checked with ⟨_ | result, state⟩
  · rw [System.setThread_threads, if_pos rfl]
    exact ⟨hrequest, hsame⟩
  · rw [System.setThread_threads, if_pos rfl]
    rintro authorization rfl
    exact ⟨session, request.scope, hrequest, hsame, hbacked (hauthorized rfl)⟩

/-- The thread of the call takes a step. -/
theorem Asking.advance {thread : ℕ}
    (hopened : Opened processId (System.run processId actions) meant)
    (h : Asking processId actions meant command targetLabel
      ((System.run processId actions).threads thread)) (seen : Seen) :
    Asking processId (actions ++ [.advance thread seen]) meant command targetLabel
      ((System.run processId (actions ++ [.advance thread seen])).threads thread) := by
  have hbefore := List.prefix_append actions [.advance thread seen]
  have hbacked {scope : CommandConfirmationScope}
      (hscope : Backed (System.run processId actions).state.registry scope) :
      Consented processId (actions ++ [.advance thread seen]) scope :=
    (backed_run hscope).mono hbefore
  have hsame {session : DesktopRoomCommandSession}
      (hsession : SameUnlessGone processId (System.run processId actions) meant session) :
      SameUnlessGone processId (System.run processId (actions ++ [.advance thread seen])) meant
        session := by
    rw [run_append_singleton]
    exact hsession.step _
  have hsessions := @sessions_run processId actions
  have hmine {next : Thread} {state : DesktopCommandConfirmationState} {number : ℕ}
      (hnext : Asking processId (actions ++ [.advance thread seen])
        meant command targetLabel next) :
      Asking processId (actions ++ [.advance thread seen]) meant command targetLabel
        (({ System.run processId actions with
            state, nextRequestSequence := number }.setThread thread next).threads thread) := by
    rw [System.setThread_threads, if_pos rfl]
    exact hnext
  rw [run_append_singleton]
  unfold System.step System.advance
  dsimp only
  generalize hthread : (System.run processId actions).threads thread = current at h
  cases current with
  | idle | opening => exact h.elim
  | returned requestId result =>
    dsimp only
    rw [hthread]
    exact h.mono _
  | looking roomId asked label =>
    obtain ⟨rfl, rfl, rfl⟩ := h
    dsimp only
    rcases hroom : (System.run processId actions).state.roomSessions[meant.roomId]? with _ | session
    · exact hmine (by rintro _ ⟨⟩)
    · exact hmine ⟨hsessions.room _ session hroom, rfl, rfl⟩
  | checking roomId session asked label =>
    dsimp only
    split
    · exact hmine trivial
    · split_ifs
      · exact hmine trivial
      · exact hmine h
  | ending roomId session =>
    dsimp only
    split <;> exact hmine (by rintro _ ⟨⟩)
  | numbering session asked label =>
    obtain ⟨hroom, rfl, rfl⟩ := h
    dsimp only
    unfold System.numberRequest
    split
    · exact hmine (by rintro _ ⟨⟩)
    · dsimp only
      split
      · exact hmine (by rintro _ ⟨⟩)
      · rename_i scope hscope
        split
        · exact hmine (by rintro _ ⟨⟩)
        · rename_i request hrequest
          unfold CommandConfirmationRequest.new at hrequest
          split at hrequest
          · obtain rfl := Except.ok.inj hrequest
            exact hmine (requestFor_of_scope hroom hscope)
          · cases hrequest
  | registering session request =>
    dsimp only
    have hregister :=
      @backed_of_registerWaiter_authorized (System.run processId actions).state session
      request
    have hkept :=
      @backed_of_registerWaiter (System.run processId actions).state request.scope session
      request
    have hactive := @registerWaiter_active (System.run processId actions).state session request
    -- The session is the one of its room, so that another one is gone.
    have hmeant (hends : ((System.run processId actions).state.registerWaiter session request).1 ≠
        some (.ok .roomSessionEnded)) :
        SameUnlessGone processId (System.run processId (actions ++ [.advance thread seen])) meant
          session := by
      refine hsame ?_
      by_cases heq : session = meant
      · exact .inl heq
      · refine .inr ⟨hopened, fun hother => heq ?_⟩
        have hsession := hactive hends
        rw [Active, h.room] at hsession
        exact Option.some.inj (hsession.symm.trans hother)
    generalize (System.run processId actions).state.registerWaiter session request = registered
      at hregister hkept hmeant
    rcases registered with ⟨_ | result, state⟩
    · exact asking_checkWaiter h (hmeant (by rintro ⟨⟩)) fun hscope => hbacked (hkept hscope)
    · refine hmine ?_
      rintro authorization rfl
      exact ⟨session, request.scope, h, hmeant (by rintro ⟨⟩), hbacked (hregister rfl)⟩
  | waiting session request => exact asking_checkWaiter h.1 (hsame h.2) hbacked

/-- The thread makes the call. -/
theorem asking_call {thread : ℕ} (hidle : (System.run processId actions).threads thread = .idle) :
    Asking processId
      (actions ++ [.waitForRoomAuthorization thread meant.roomId command targetLabel]) meant command
      targetLabel ((System.run processId (actions ++ [.waitForRoomAuthorization thread meant.roomId
        command targetLabel])).threads thread) := by
  rw [run_append_singleton]
  unfold System.step
  dsimp only
  rw [hidle]
  dsimp only
  split_ifs
  · rw [System.setThread_threads, if_pos rfl]
    exact nofun
  · rw [System.setThread_threads, if_pos rfl]
    exact ⟨rfl, rfl, rfl⟩

end Asking

end Mio.Desktop.CommandConfirmations
