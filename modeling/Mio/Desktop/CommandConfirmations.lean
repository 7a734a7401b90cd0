import Mio.Broker.Confirmation
import Mio.Desktop.RoomWorkspace

/-!
# The consent to the commands of a room

`apps/desktop/src-tauri/src/command_confirmations.rs` keeps the session of each room, and has the
threads that want to run a command wait for the owner's consent. What a function does while it holds
the lock is one function on the state here. The threads take turns between them (`System.step`): a
function that takes the lock more than once, asks the file system, or takes a number from a counter
takes a step for each.

When a thread looks up the workspace of its room, the step is given what it sees, and a thread that
waits may be woken at any time, and told whether its time is over. Nothing else depends on the clock
or on notifications.
-/

namespace Mio.Desktop.CommandConfirmations

open Library Broker Std
open RoomWorkspace (AvailableRoomWorkspace)

/-- What the owner can decide. -/
inductive DesktopConfirmationDecision where
  | allowOnce
  | allowRoomSession
  | deny
  | dismissed
  deriving DecidableEq

/-- What came of a decision. -/
inductive DesktopConfirmationResolutionStatus where
  | authorizationReady
  | denied
  deriving DecidableEq

/-- The answer to a decision. -/
structure DesktopCommandConfirmationResolution where
  ok : Bool
  requestId : String
  status : DesktopConfirmationResolutionStatus
  denial : Option String
  deriving DecidableEq

/-- An error as the application shows it. -/
structure DesktopCommandConfirmationError where
  code : String
  message : String
  deriving DecidableEq

/-- What a call that asks for an authorization is told. -/
inductive DesktopCommandAuthorizationOutcome where
  | authorized (authorization : CommandAuthorization)
  | denied (denial : ConfirmationDenial)
  | roomSessionEnded
  deriving DecidableEq

/-- What a waiting request is resolved to. -/
inductive DesktopCommandWaitResolution where
  | resolved (outcome : ConfirmationResolveOutcome)
  | roomSessionEnded
  deriving DecidableEq

/-- The decision as the broker has it. -/
def mapDecision : DesktopConfirmationDecision → ConfirmationDecision
  | .allowOnce => .allowOnce
  | .allowRoomSession => .allowRoomSession
  | .deny => .deny
  | .dismissed => .dismissed

/-- How a denial is written in an answer. -/
def denialLabel : ConfirmationDenial → String
  | .ownerDenied => "ownerDenied"
  | .dismissed => "dismissed"
  | .timedOut => "timedOut"
  | .sessionLifetimeNotAllowed => "sessionLifetimeNotAllowed"

/-- The answer to the decision, by what the broker made of it. -/
def resolution (requestId : String) :
    ConfirmationResolveOutcome → DesktopCommandConfirmationResolution
  | .authorizationReady => { ok := true, requestId, status := .authorizationReady, denial := none }
  | .denied denial =>
    { ok := true, requestId, status := .denied, denial := some (denialLabel denial) }

/-- The error of a call that is not well formed. -/
def invalid : DesktopCommandConfirmationError where
  code := "invalidCommandConfirmation"
  message := "The command confirmation request is invalid."

/-- The error of a decision on a request that does not wait. -/
def notPending : DesktopCommandConfirmationError where
  code := "commandConfirmationNotPending"
  message := "The command confirmation is no longer pending."

/-- The error of everything else. -/
def unavailable : DesktopCommandConfirmationError where
  code := "commandConfirmationUnavailable"
  message := "Command confirmation is temporarily unavailable."

/-- How an error of the broker is shown. -/
def mapContractError : ConfirmationContractError → DesktopCommandConfirmationError
  | .invalidRequestId | .invalidScope => invalid
  | .unknownRequest | .requestAlreadyResolved => notPending
  | .requestIdConflict | .scopeMismatch | .tooManyPending | .terminalRegistryFull => unavailable

/-- Whether an identifier is of printable ASCII and not too long. -/
def validIdentifier (value : String) : Bool :=
  boundedBytes 256 (fun _ byte => isAsciiGraphic byte) value

/-! ## The state under the lock -/

/-- The session in which a room's commands are asked for. -/
structure DesktopRoomCommandSession where
  roomId : String
  sessionId : String
  workspaceKey : String
  deriving DecidableEq

/-- What the mutex protects. -/
structure DesktopCommandConfirmationState where
  registry : CommandConfirmationRegistry
  roomSessions : ExtTreeMap String DesktopRoomCommandSession
  /-- The sessions of the requests that a thread waits for. -/
  waitingSessions : ExtTreeMap String String
  resolutions : ExtTreeMap String DesktopCommandWaitResolution

/-- What a call returns. -/
abbrev WaitResult := Except DesktopCommandConfirmationError DesktopCommandAuthorizationOutcome

/-- The scope of a command in the session. -/
def DesktopRoomCommandSession.scope (session : DesktopRoomCommandSession)
    (command : ActionTimeCommand) (targetLabel : String) :
    Except DesktopCommandConfirmationError CommandConfirmationScope :=
  (CommandConfirmationScope.new session.roomId session.sessionId session.workspaceKey command
    targetLabel).mapError mapContractError

namespace DesktopCommandConfirmationState

/-- The state of `Default::default`. -/
def empty : DesktopCommandConfirmationState where
  registry := .empty
  roomSessions := ∅
  waitingSessions := ∅
  resolutions := ∅

/-- How many entries are removed, and whether a thread waits for one of the session's requests. -/
def endSessionInState (sessionId : String) (state : DesktopCommandConfirmationState) :
    (ℕ × Bool) × DesktopCommandConfirmationState :=
  let waitingRequestIds :=
    (state.waitingSessions.toList.filter fun (_, waitingSessionId) =>
      waitingSessionId == sessionId).map fun (requestId, _) => requestId
  let (removed, registry) := state.registry.endRoomSession sessionId
  let resolutions := waitingRequestIds.foldl
    (fun resolutions requestId => resolutions.insert requestId .roomSessionEnded) state.resolutions
  ((removed, !waitingRequestIds.isEmpty), { state with registry, resolutions })

/-- The session takes the place of the room's session (`begin_room_session`, with the lock). -/
def replaceRoomSession (session : DesktopRoomCommandSession)
    (state : DesktopCommandConfirmationState) : DesktopCommandConfirmationState :=
  let previous := state.roomSessions[session.roomId]?
  let state := { state with roomSessions := state.roomSessions.erase session.roomId }
  let state :=
    match previous with
    | some previous => (state.endSessionInState previous.sessionId).2
    | none => state
  { state with roomSessions := state.roomSessions.insert session.roomId session }

/-- Ends the session of a room; the answer counts the requests that it had. -/
def endRoomSession (roomId : String) (state : DesktopCommandConfirmationState) :
    Except DesktopCommandConfirmationError ℕ × DesktopCommandConfirmationState :=
  if !validIdentifier roomId then (.error invalid, state)
  else
    match state.roomSessions[roomId]? with
    | none => (.ok 0, state)
    | some session =>
      let state := { state with roomSessions := state.roomSessions.erase roomId }
      let ((removed, _), state) := state.endSessionInState session.sessionId
      (.ok removed, state)

/-- A decision on a request is made known to the thread that waits for it. -/
def applyDecision (requestId : String) (decision : ConfirmationDecision)
    (state : DesktopCommandConfirmationState) :
    Except DesktopCommandConfirmationError ConfirmationResolveOutcome ×
      DesktopCommandConfirmationState :=
  match state.registry.resolve requestId decision with
  | (.error e, registry) => (.error (mapContractError e), { state with registry })
  | (.ok outcome, registry) =>
    let resolutions :=
      if state.waitingSessions.contains requestId then
        state.resolutions.insert requestId (.resolved outcome)
      else state.resolutions
    (.ok outcome, { state with registry, resolutions })

/-- The owner decides on a request, which must be pending for the room. -/
def resolveForRoom (roomId requestId : String) (decision : DesktopConfirmationDecision)
    (state : DesktopCommandConfirmationState) :
    Except DesktopCommandConfirmationError DesktopCommandConfirmationResolution ×
      DesktopCommandConfirmationState :=
  if !validIdentifier roomId || !validIdentifier requestId then (.error invalid, state)
  else
    let belongsToRoom := state.registry.pendingRequests.any fun (pendingId, scope) =>
      pendingId == requestId && scope.roomId == roomId
    if !belongsToRoom then (.error notPending, state)
    else
      match state.applyDecision requestId (mapDecision decision) with
      | (.error e, state) => (.error e, state)
      | (.ok outcome, state) => (.ok (resolution requestId outcome), state)

/-- A request that was not decided in time is denied. -/
def timeout (requestId : String) (state : DesktopCommandConfirmationState) :
    Except DesktopCommandConfirmationError ConfirmationResolveOutcome ×
      DesktopCommandConfirmationState :=
  state.applyDecision requestId .timedOut

/-- Consume the authorization of a request, and return it. -/
def consumed (request : CommandConfirmationRequest) (state : DesktopCommandConfirmationState) :
    WaitResult × DesktopCommandConfirmationState :=
  match state.registry.consumeAuthorization request.requestId request.scope with
  | (.ok authorization, registry) => (.ok (.authorized authorization), { state with registry })
  | (.error e, registry) => (.error (mapContractError e), { state with registry })

/-- What `wait_for_authorization_inner` does before its loop. It goes on to the loop where this
returns nothing. -/
def registerWaiter (session : DesktopRoomCommandSession) (request : CommandConfirmationRequest)
    (state : DesktopCommandConfirmationState) :
    Option WaitResult × DesktopCommandConfirmationState :=
  if state.roomSessions[session.roomId]? != some session ||
      request.scope.roomId != session.roomId || request.scope.sessionId != session.sessionId ||
      request.scope.workspaceKey != session.workspaceKey then
    (some (.ok .roomSessionEnded), state)
  else if state.waitingSessions.contains request.requestId then (some (.error unavailable), state)
  else
    match state.registry.register request with
    | (.error e, registry) => (some (.error (mapContractError e)), { state with registry })
    | (.ok .authorizedByRoomSession, registry) =>
      let (result, state) := { state with registry }.consumed request
      (some result, state)
    | (.ok .pending, registry) =>
      let waitingSessions := state.waitingSessions.insert request.requestId request.scope.sessionId
      (none, { state with registry, waitingSessions })
    | (.ok .alreadyPending, registry) => (some (.error unavailable), { state with registry })

/-- One round of its loop. It waits for the next one where this returns nothing. -/
def checkResolution (request : CommandConfirmationRequest) (expired : Bool)
    (state : DesktopCommandConfirmationState) :
    Option WaitResult × DesktopCommandConfirmationState :=
  match state.resolutions[request.requestId]? with
  | some waitResolution =>
    let state := { state with
      resolutions := state.resolutions.erase request.requestId
      waitingSessions := state.waitingSessions.erase request.requestId }
    match waitResolution with
    | .resolved .authorizationReady =>
      let (result, state) := state.consumed request
      (some result, state)
    | .resolved (.denied denial) => (some (.ok (.denied denial)), state)
    | .roomSessionEnded => (some (.ok .roomSessionEnded), state)
  | none =>
    if !expired then (none, state)
    else
      let state := { state with waitingSessions := state.waitingSessions.erase request.requestId }
      match state.registry.resolve request.requestId .timedOut with
      | (.ok (.denied denial), registry) => (some (.ok (.denied denial)), { state with registry })
      | (.ok .authorizationReady, registry) => (some (.error unavailable), { state with registry })
      | (.error e, registry) => (some (.error (mapContractError e)), { state with registry })

end DesktopCommandConfirmationState

/-! ## The threads -/

/-- The state and the counters of sessions and requests. -/
structure DesktopCommandConfirmations where
  state : DesktopCommandConfirmationState
  nextSessionSequence : ℕ
  nextRequestSequence : ℕ

/-- Where a thread is. The last six are the steps of `wait_for_room_authorization`. -/
inductive Thread where
  /-- It has made no call that is still open, and none of `wait_for_room_authorization`. -/
  | idle
  /-- It is in `begin_room_session`, before it takes the lock. -/
  | opening (session : DesktopRoomCommandSession)
  /-- Before it looks up the session of its room. -/
  | looking (roomId : String) (command : ActionTimeCommand) (targetLabel : String)
  /-- Before it looks up the workspace of its room. -/
  | checking (roomId : String) (session : DesktopRoomCommandSession) (command : ActionTimeCommand)
    (targetLabel : String)
  /-- Before it ends the session of its room, whose workspace is gone or another. -/
  | ending (roomId : String) (session : DesktopRoomCommandSession)
  /-- Before it takes a number for its request. -/
  | numbering (session : DesktopRoomCommandSession) (command : ActionTimeCommand)
    (targetLabel : String)
  /-- Before it registers its request. -/
  | registering (session : DesktopRoomCommandSession) (request : CommandConfirmationRequest)
  /-- It waits for a decision. -/
  | waiting (session : DesktopRoomCommandSession) (request : CommandConfirmationRequest)
  /-- It has returned, and this was the identifier of its request if it had made one. -/
  | returned (requestId : Option String) (result : WaitResult)
  deriving DecidableEq

/-- The confirmations and the threads that use them. -/
structure System extends DesktopCommandConfirmations where
  threads : ℕ → Thread

/-- What a thread sees of the outside: the workspace of its room, which may be missing or refused,
and whether its time is over. -/
structure Seen where
  workspace : Option AvailableRoomWorkspace
  expired : Bool

/-- What can happen in the system. -/
inductive Action where
  /-- An idle thread calls `begin_room_session`. -/
  | beginRoomSession (thread : ℕ) (roomId : String) (workspace : AvailableRoomWorkspace)
  /-- An idle thread calls `wait_for_room_authorization`. -/
  | waitForRoomAuthorization (thread : ℕ) (roomId : String) (command : ActionTimeCommand)
    (targetLabel : String)
  /-- A thread takes its next step. -/
  | advance (thread : ℕ) (seen : Seen)
  | resolveForRoom (roomId requestId : String) (decision : DesktopConfirmationDecision)
  | timeout (requestId : String)
  | endRoomSession (roomId : String)

/-- The number that follows, as long as it is one of 64 bits (`checked_add`). -/
def checkedSucc (current : ℕ) : Option ℕ :=
  if current + 1 < 2 ^ 64 then some (current + 1) else none

/-- The identifier of a session, by process and number. -/
def sessionIdentifier (processId : UInt32) (sequence : ℕ) : String :=
  "mio-command-session-" ++ toString processId.toNat ++ "-" ++ toString sequence

/-- The identifier of a request, by process and number. -/
def requestIdentifier (processId : UInt32) (sequence : ℕ) : String :=
  "mio-command-request-" ++ toString processId.toNat ++ "-" ++ toString sequence

namespace System

/-- The state after a start. -/
def initial : System where
  state := .empty
  nextSessionSequence := 1
  nextRequestSequence := 1
  threads := fun _ => .idle

/-- Moves a thread. -/
def setThread (thread : ℕ) (next : Thread) (system : System) : System :=
  { system with threads := Function.update system.threads thread next }

/-- A call of `begin_room_session`, up to the lock. It returns an error where it goes no further. -/
def beginRoomSession (processId : UInt32) (thread : ℕ) (roomId : String)
    (workspace : AvailableRoomWorkspace) (system : System) : System :=
  if !validIdentifier roomId then system
  else
    match checkedSucc system.nextSessionSequence with
    | none => system
    | some next =>
      let session : DesktopRoomCommandSession :=
        { roomId
          sessionId := sessionIdentifier processId system.nextSessionSequence
          workspaceKey := workspace.identityKey }
      { system with nextSessionSequence := next }.setThread thread (.opening session)

/-- The thread takes a number for its request, and makes the request. -/
def numberRequest (processId : UInt32) (thread : ℕ) (session : DesktopRoomCommandSession)
    (command : ActionTimeCommand) (targetLabel : String) (system : System) : System :=
  match checkedSucc system.nextRequestSequence with
  | none => system.setThread thread (.returned none (.error unavailable))
  | some next =>
    let requestId := requestIdentifier processId system.nextRequestSequence
    let system := { system with nextRequestSequence := next }
    match session.scope command targetLabel with
    | .error e => system.setThread thread (.returned none (.error e))
    | .ok scope =>
      match CommandConfirmationRequest.new requestId scope with
      | .error e => system.setThread thread (.returned none (.error (mapContractError e)))
      | .ok request => system.setThread thread (.registering session request)

/-- A round of the loop in `wait_for_authorization_inner`. -/
def checkWaiter (thread : ℕ) (session : DesktopRoomCommandSession)
    (request : CommandConfirmationRequest) (expired : Bool) (system : System) : System :=
  match system.state.checkResolution request expired with
  | (some result, state) =>
    { system with state }.setThread thread (.returned (some request.requestId) result)
  | (none, state) => { system with state }.setThread thread (.waiting session request)

/-- A thread takes its next step. -/
def advance (processId : UInt32) (thread : ℕ) (seen : Seen) (system : System) : System :=
  match system.threads thread with
  | .idle | .returned _ _ => system
  | .opening session =>
    { system with state := system.state.replaceRoomSession session }.setThread thread .idle
  | .looking roomId command targetLabel =>
    match system.state.roomSessions[roomId]? with
    | none => system.setThread thread (.returned none (.ok .roomSessionEnded))
    | some session => system.setThread thread (.checking roomId session command targetLabel)
  | .checking roomId session command targetLabel =>
    match seen.workspace with
    | none => system.setThread thread (.ending roomId session)
    | some workspace =>
      if workspace.identityKey != session.workspaceKey then
        system.setThread thread (.ending roomId session)
      else system.setThread thread (.numbering session command targetLabel)
  | .ending roomId _ =>
    match system.state.endRoomSession roomId with
    | (.error e, state) => { system with state }.setThread thread (.returned none (.error e))
    | (.ok _, state) =>
      { system with state }.setThread thread (.returned none (.ok .roomSessionEnded))
  | .numbering session command targetLabel =>
    system.numberRequest processId thread session command targetLabel
  | .registering session request =>
    match system.state.registerWaiter session request with
    | (some result, state) =>
      { system with state }.setThread thread (.returned (some request.requestId) result)
    | (none, state) => { system with state }.checkWaiter thread session request seen.expired
  | .waiting session request => system.checkWaiter thread session request seen.expired

/-- An action, by the thread that takes it. -/
def step (processId : UInt32) (system : System) : Action → System
  | .beginRoomSession thread roomId workspace =>
    match system.threads thread with
    | .idle => system.beginRoomSession processId thread roomId workspace
    | _ => system
  | .waitForRoomAuthorization thread roomId command targetLabel =>
    match system.threads thread with
    | .idle =>
      if !validIdentifier roomId then system.setThread thread (.returned none (.error invalid))
      else system.setThread thread (.looking roomId command targetLabel)
    | _ => system
  | .advance thread seen => system.advance processId thread seen
  | .resolveForRoom roomId requestId decision =>
    { system with state := (system.state.resolveForRoom roomId requestId decision).2 }
  | .timeout requestId => { system with state := (system.state.timeout requestId).2 }
  | .endRoomSession roomId => { system with state := (system.state.endRoomSession roomId).2 }

/-- What actions leave, in any order. -/
def run (processId : UInt32) (actions : List Action) : System :=
  actions.foldl (step processId) initial

end System

end Mio.Desktop.CommandConfirmations
