import Mathlib
import Mio.Broker.CommandBroker

/-!
# The registry of command confirmations

The registry of `crates/moe-command-broker/src/confirmation.rs` keeps every request for a command
that needs the owner's consent: it is pending until it is decided, ready once it is allowed, and
terminal once it is denied or its authorization is consumed. A grant for a room session makes later
requests of its scope ready at once. The end of a session removes everything of it.

A scope and a request have passed their check. An operation takes the registry and returns its
result together with the registry that it leaves.
-/

namespace Mio.Broker

open Library Std

/-- The longest identifier of a request, in bytes. -/
def maximumConfirmationIdBytes : ℕ := 128

/-- The longest identifier in a scope, in bytes. -/
def maximumScopeIdBytes : ℕ := 256

/-- The longest label of a target, in characters. -/
def maximumTargetCharacters : ℕ := 256

/-- How many requests can wait for the owner at once. -/
def maximumPendingConfirmations : ℕ := 32

/-- How many requests can be over before the registry takes no more. -/
def maximumTerminalConfirmations : ℕ := 1024

/-! ## Scopes and requests -/

/-- An identifier of at most so many bytes, each of them a visible ASCII character. -/
def validIdentifier (value : String) (maximumBytes : ℕ) : Bool :=
  boundedBytes maximumBytes (fun _ byte => isAsciiGraphic byte) value

/-- A label that can be shown: not empty, not too long, and without control characters. -/
def validTargetLabel (value : String) : Bool :=
  !value.isEmpty && value.length ≤ maximumTargetCharacters &&
    value.toList.all fun character => !isControl character

/-- Why a call of the registry fails. -/
inductive ConfirmationContractError where
  | invalidRequestId
  | invalidScope
  | requestIdConflict
  | requestAlreadyResolved
  | unknownRequest
  | tooManyPending
  | terminalRegistryFull
  | scopeMismatch
  deriving DecidableEq

/-- The check of a scope. -/
def validScope (roomId sessionId workspaceKey targetLabel : String) : Bool :=
  validIdentifier roomId maximumScopeIdBytes && validIdentifier sessionId maximumScopeIdBytes &&
    validIdentifier workspaceKey maximumScopeIdBytes && validTargetLabel targetLabel

/-- What a confirmation is for: a command on a target, in a session of a room and a workspace. -/
structure CommandConfirmationScope where
  roomId : String
  sessionId : String
  workspaceKey : String
  command : ActionTimeCommand
  targetLabel : String
  /-- The scope has passed the check. -/
  valid : validScope roomId sessionId workspaceKey targetLabel = true
  deriving DecidableEq

namespace CommandConfirmationScope

/-- A scope, if its identifiers and its label pass their checks. -/
def new (roomId sessionId workspaceKey : String) (command : ActionTimeCommand)
    (targetLabel : String) : Except ConfirmationContractError CommandConfirmationScope :=
  if h : validScope roomId sessionId workspaceKey targetLabel = true then
    .ok ⟨roomId, sessionId, workspaceKey, command, targetLabel, h⟩
  else .error .invalidScope

/-- The reason that the owner is given. -/
def reason (scope : CommandConfirmationScope) : ConfirmationReason := scope.command.reason

/-- Whether the owner may confirm it for the rest of the session. -/
def allowsRoomSession (scope : CommandConfirmationScope) : Bool := scope.command.allowsRoomSession

end CommandConfirmationScope

/-- A question to the owner. -/
structure CommandConfirmationRequest where
  requestId : String
  scope : CommandConfirmationScope
  /-- The request has passed the check. -/
  valid : validIdentifier requestId maximumConfirmationIdBytes = true
  deriving DecidableEq

/-- A question, if its identifier passes its check. -/
def CommandConfirmationRequest.new (requestId : String) (scope : CommandConfirmationScope) :
    Except ConfirmationContractError CommandConfirmationRequest :=
  if h : validIdentifier requestId maximumConfirmationIdBytes = true then .ok ⟨requestId, scope, h⟩
  else .error .invalidRequestId

/-! ## Decisions and outcomes -/

/-- What the owner decides, or what becomes of the question without a decision. -/
inductive ConfirmationDecision where
  | allowOnce
  | allowRoomSession
  | deny
  | dismissed
  | timedOut
  deriving DecidableEq

/-- Why a question does not lead to an authorization. -/
inductive ConfirmationDenial where
  | ownerDenied
  | dismissed
  | timedOut
  | sessionLifetimeNotAllowed
  deriving DecidableEq

/-- How long an authorization holds. -/
inductive AuthorizationLifetime where
  | once
  | roomSession
  deriving DecidableEq

/-- An authorization, as it is handed out. -/
structure CommandAuthorization where
  requestId : String
  scope : CommandConfirmationScope
  lifetime : AuthorizationLifetime
  deriving DecidableEq

/-- What a registration leads to. -/
inductive ConfirmationRegisterOutcome where
  | pending
  | alreadyPending
  | authorizedByRoomSession
  deriving DecidableEq

/-- What a decision leads to. -/
inductive ConfirmationResolveOutcome where
  | authorizationReady
  | denied (denial : ConfirmationDenial)
  deriving DecidableEq

/-! ## The registry -/

/-- An authorization that can be consumed. -/
structure ReadyAuthorization where
  scope : CommandConfirmationScope
  lifetime : AuthorizationLifetime
  deriving DecidableEq

/-- The questions that wait, the authorizations that are ready, the requests that are over, and the
scopes that hold for the rest of their session. -/
structure CommandConfirmationRegistry where
  pending : ExtTreeMap String CommandConfirmationScope
  ready : ExtTreeMap String ReadyAuthorization
  /-- The sessions of the requests that are finished. -/
  terminal : ExtTreeMap String String
  roomSessionGrants : Finset CommandConfirmationScope

/-- The registry without any request (`Default::default`). -/
def CommandConfirmationRegistry.empty : CommandConfirmationRegistry where
  pending := ∅
  ready := ∅
  terminal := ∅
  roomSessionGrants := ∅

namespace CommandConfirmationRegistry

/-- Register a question. One for a scope that the owner has confirmed for the session is authorized
at once. -/
def register (request : CommandConfirmationRequest) (registry : CommandConfirmationRegistry) :
    Except ConfirmationContractError ConfirmationRegisterOutcome × CommandConfirmationRegistry :=
  match registry.pending[request.requestId]? with
  | some existing =>
    if existing == request.scope then (.ok .alreadyPending, registry)
    else (.error .requestIdConflict, registry)
  | none =>
    if registry.ready.contains request.requestId ||
      registry.terminal.contains request.requestId then
      (.error .requestAlreadyResolved, registry)
    else if maximumTerminalConfirmations ≤ registry.terminal.size then
      (.error .terminalRegistryFull, registry)
    else if maximumPendingConfirmations ≤ registry.pending.size + registry.ready.size then
      (.error .tooManyPending, registry)
    else if request.scope ∈ registry.roomSessionGrants then
      (.ok .authorizedByRoomSession,
        { registry with
          ready := registry.ready.insert request.requestId
            { scope := request.scope, lifetime := .roomSession } })
    else
      (.ok .pending,
        { registry with pending := registry.pending.insert request.requestId request.scope })

/-- Note that a request is over, as long as the registry has room for it. -/
def finishTerminal (requestId sessionId : String) (registry : CommandConfirmationRegistry) :
    Except ConfirmationContractError Unit × CommandConfirmationRegistry :=
  if maximumTerminalConfirmations ≤ registry.terminal.size then
    (.error .terminalRegistryFull, registry)
  else (.ok (), { registry with terminal := registry.terminal.insert requestId sessionId })

/-- Finish a request and, where that succeeds, return the answer. -/
def finishWith {α : Type} (requestId sessionId : String)
    (answer : Except ConfirmationContractError α) (registry : CommandConfirmationRegistry) :
    Except ConfirmationContractError α × CommandConfirmationRegistry :=
  match registry.finishTerminal requestId sessionId with
  | (.ok (), registry) => (answer, registry)
  | (.error e, registry) => (.error e, registry)

/-- Apply a decision to the question that waits for it. A confirmation for the session is refused to
a command that does not allow one. -/
def resolve (requestId : String) (decision : ConfirmationDecision)
    (registry : CommandConfirmationRegistry) :
    Except ConfirmationContractError ConfirmationResolveOutcome × CommandConfirmationRegistry :=
  if maximumTerminalConfirmations ≤ registry.terminal.size then
    (.error .terminalRegistryFull, registry)
  else if registry.ready.contains requestId || registry.terminal.contains requestId then
    (.error .requestAlreadyResolved, registry)
  else
    match registry.pending[requestId]? with
    | none => (.error .unknownRequest, registry)
    | some scope =>
      let registry := { registry with pending := registry.pending.erase requestId }
      match decision with
      | .allowOnce =>
        (.ok .authorizationReady,
          { registry with ready := registry.ready.insert requestId { scope, lifetime := .once } })
      | .allowRoomSession =>
        if scope.allowsRoomSession then
          (.ok .authorizationReady,
            { registry with
              roomSessionGrants := insert scope registry.roomSessionGrants
              ready := registry.ready.insert requestId { scope, lifetime := .roomSession } })
        else
          registry.finishWith requestId scope.sessionId (.ok (.denied .sessionLifetimeNotAllowed))
      | .deny => registry.finishWith requestId scope.sessionId (.ok (.denied .ownerDenied))
      | .dismissed => registry.finishWith requestId scope.sessionId (.ok (.denied .dismissed))
      | .timedOut => registry.finishWith requestId scope.sessionId (.ok (.denied .timedOut))

/-- The error for a request that is not there: it is over, or it never was. -/
def missingRequestError (requestId : String) (registry : CommandConfirmationRegistry) :
    ConfirmationContractError :=
  if registry.terminal.contains requestId then .requestAlreadyResolved else .unknownRequest

/-- Hand out a ready authorization, once, to the scope that it is for. -/
def consumeAuthorization (requestId : String) (expectedScope : CommandConfirmationScope)
    (registry : CommandConfirmationRegistry) :
    Except ConfirmationContractError CommandAuthorization × CommandConfirmationRegistry :=
  if maximumTerminalConfirmations ≤ registry.terminal.size then
    (.error .terminalRegistryFull, registry)
  else
    match registry.ready[requestId]? with
    | none => (.error (registry.missingRequestError requestId), registry)
    | some ready =>
      let registry := { registry with ready := registry.ready.erase requestId }
      if ready.scope != expectedScope then
        registry.finishWith requestId ready.scope.sessionId (.error .scopeMismatch)
      else
        registry.finishWith requestId ready.scope.sessionId
          (.ok { requestId, scope := ready.scope, lifetime := ready.lifetime })

/-- The pending requests, by their identifiers (`pending_requests`). -/
def pendingRequests (registry : CommandConfirmationRegistry) :
    List (String × CommandConfirmationScope) :=
  registry.pending.toList

/-- How many entries the registry has. -/
def size (registry : CommandConfirmationRegistry) : ℕ :=
  registry.pending.size + registry.ready.size + registry.terminal.size +
    registry.roomSessionGrants.card

/-- Drop what belongs to a session, and count what was dropped. -/
def endRoomSession (sessionId : String) (registry : CommandConfirmationRegistry) :
    ℕ × CommandConfirmationRegistry :=
  let after : CommandConfirmationRegistry :=
    { pending := registry.pending.filter fun _ scope => scope.sessionId != sessionId
      ready := registry.ready.filter fun _ authorization =>
        authorization.scope.sessionId != sessionId
      terminal := registry.terminal.filter fun _ terminalSessionId => terminalSessionId != sessionId
      roomSessionGrants := registry.roomSessionGrants.filter fun scope =>
        scope.sessionId != sessionId }
  (registry.size - after.size, after)

end CommandConfirmationRegistry

end Mio.Broker
