import Mathlib
import Mio.Library.Text

/-!
# The connections to a relay

`RelayClientService` of `crates/moe-relay-client/src/lib.rs` keeps the phase of each account. The
phase is what a status shows, and it is also what keeps a second connection of the account from
being made. The credential store and the transport are other code, which may fail at any call: what
they answer is given to the step that calls them.

Every section that holds the lock is one function on the phases. A call, and the drop of a
connection, takes a step for each of them and one for every call of the store or of the transport.
-/

namespace Mio.Relay

open Library Std

/-! ## Errors -/

/-- Why the store of the credentials fails. -/
inductive CredentialStoreError where
  | invalidAccountId
  | invalidSecret
  | unsupportedPlatform
  | platform (operation : String) (code : Int32)
  deriving DecidableEq

/-- How a pairing can fail. -/
inductive RelayPairingTransportErrorKind where
  | invalidCode
  | expired
  | used
  | locked
  | unavailable
  | protocol
  | cancelled
  deriving DecidableEq

/-- How a connection can fail. -/
inductive RelayTransportErrorKind where
  | rejected
  | unavailable
  | protocol
  | cancelled
  deriving DecidableEq

/-- The errors that may be shown. -/
inductive RelayConnectionErrorCode where
  | credentialMissing
  | secureStorageUnavailable
  | secureStorageFailed
  | pairingRejected
  | pairingExpired
  | pairingUsed
  | pairingLocked
  | relayRejected
  | relayUnavailable
  | protocol
  | cancelled
  | alreadyActive
  | runtimeUnavailable
  deriving DecidableEq

/-- How a call of the client can fail. -/
inductive RelayClientError where
  | credentialStore (error : CredentialStoreError)
  | pairingDeviceMismatch
  | credentialNotStored
  | pairingTransport (kind : RelayPairingTransportErrorKind)
  | transport (kind : RelayTransportErrorKind)
  deriving DecidableEq

/-- The error that is shown for a failed connection. -/
def RelayTransportErrorKind.safeErrorCode : RelayTransportErrorKind → RelayConnectionErrorCode
  | rejected => .relayRejected
  | unavailable => .relayUnavailable
  | protocol => .protocol
  | cancelled => .cancelled

/-- The error that is shown for a failed call. -/
def safeErrorCode : RelayClientError → RelayConnectionErrorCode
  | .credentialStore .unsupportedPlatform => .secureStorageUnavailable
  | .credentialStore _ => .secureStorageFailed
  | .pairingDeviceMismatch => .protocol
  | .credentialNotStored => .credentialMissing
  | .pairingTransport .invalidCode => .pairingRejected
  | .pairingTransport .expired => .pairingExpired
  | .pairingTransport .used => .pairingUsed
  | .pairingTransport .locked => .pairingLocked
  | .pairingTransport .unavailable => .relayUnavailable
  | .pairingTransport .protocol => .protocol
  | .pairingTransport .cancelled => .cancelled
  | .transport kind => kind.safeErrorCode

/-- Why the service refuses a call. -/
inductive RelayServiceError where
  | alreadyActive
  | client (error : RelayClientError)
  deriving DecidableEq

/-! ## Accounts -/

/-- The check of `RelayCredentialId::new`. -/
def validAccountId : String → Bool :=
  boundedBytes 64 fun index byte =>
    0x61 ≤ byte && byte ≤ 0x7a || isAsciiDigit byte ||
      (byte == 0x2e || byte == 0x5f || byte == 0x2d) && 0 < index

/-- The id of an account, which carries that it is valid. -/
structure RelayAccountId where
  value : String
  /-- The identifier has passed the check. -/
  valid : validAccountId value = true
  deriving DecidableEq

/-- Where the connection of an account is. -/
inductive RelayConnectionPhase where
  | offline
  | connecting
  | connected
  | error
  deriving DecidableEq

/-- What is remembered of an account. -/
structure AccountConnectionState where
  phase : RelayConnectionPhase
  lastErrorCode : Option RelayConnectionErrorCode
  deriving DecidableEq

/-- `Default::default`. -/
def AccountConnectionState.offline : AccountConnectionState where
  phase := .offline
  lastErrorCode := none

/-- The status of an account, as it is shown. -/
structure RelayConnectionStatus where
  accountId : RelayAccountId
  phase : RelayConnectionPhase
  credentialStored : Bool
  lastErrorCode : Option RelayConnectionErrorCode
  deriving DecidableEq

/-- What is remembered, by account. -/
abbrev ConnectionStates := ExtTreeMap String AccountConnectionState

/-- The state of an account, which is offline at first (`entry(..).or_default()`). -/
def accountState (states : ConnectionStates) (accountId : RelayAccountId) :
    AccountConnectionState :=
  states[accountId.value]?.getD .offline

/-- The phases in which a connection is made, or has been made. -/
def AccountConnectionState.active (state : AccountConnectionState) : Bool :=
  state.phase == .connecting || state.phase == .connected

/-! ## The service -/

namespace RelayConnectionManager

/-- `has_credential`, by what the store answers. -/
def hasCredential (contains : Except CredentialStoreError Bool) : Except RelayClientError Bool :=
  contains.mapError .credentialStore

/-- `connect`, by what the store and the transport answer: whether there is a credential, and
whether the connection was made. -/
def connect (loaded : Except CredentialStoreError Bool)
    (connection : Except RelayTransportErrorKind Unit) : Except RelayClientError Unit :=
  match loaded with
  | .error e => .error (.credentialStore e)
  | .ok false => .error .credentialNotStored
  | .ok true => connection.mapError .transport

end RelayConnectionManager

namespace RelayClientService

/-- `status`, once it is known whether there is a credential. -/
def status (accountId : RelayAccountId) (credentialResult : Except RelayClientError Bool)
    (states : ConnectionStates) : RelayConnectionStatus × ConnectionStates :=
  let state := accountState states accountId
  let (credentialStored, state) :=
    match credentialResult with
    | .ok stored => (stored, state)
    | .error e =>
      (false, { state with phase := .error, lastErrorCode := some (safeErrorCode e) })
  ({ accountId, phase := state.phase, credentialStored, lastErrorCode := state.lastErrorCode },
    states.insert accountId.value state)

/-- The first section of `connect`. -/
def reserve (accountId : RelayAccountId) (states : ConnectionStates) :
    Except RelayServiceError Unit × ConnectionStates :=
  let state := accountState states accountId
  if state.active then (.error .alreadyActive, states.insert accountId.value state)
  else
    (.ok (), states.insert accountId.value
      { state with phase := .connecting, lastErrorCode := none })

/-- The second section of `connect`, with what the manager returned. -/
def publish (accountId : RelayAccountId) (result : Except RelayClientError Unit)
    (states : ConnectionStates) : Except RelayServiceError Unit × ConnectionStates :=
  let state := accountState states accountId
  match result with
  | .ok () =>
    (.ok (), states.insert accountId.value
      { state with phase := .connected, lastErrorCode := none })
  | .error e =>
    (.error (.client e), states.insert accountId.value
      { state with phase := .error, lastErrorCode := some (safeErrorCode e) })

/-- What the drop of a `ManagedRelayConnection` does once the connection is closed. -/
def dropped (accountId : RelayAccountId) (states : ConnectionStates) : ConnectionStates :=
  states.insert accountId.value .offline

end RelayClientService

/-! ## Calls and connections -/

/-- Where a call of the service is, and the connection that it has returned. -/
inductive Call where
  | idle
  /-- In `status`, before it takes the lock. -/
  | checking (accountId : RelayAccountId) (credentialResult : Except RelayClientError Bool)
  /-- In `connect`, before the manager connects. -/
  | reserved (accountId : RelayAccountId)
  /-- In `connect`, before the result is published. -/
  | answered (accountId : RelayAccountId) (result : Except RelayClientError Unit)
  /-- The `ManagedRelayConnection` that `connect` has returned, as long as it is not dropped. -/
  | alive (accountId : RelayAccountId)
  /-- In the drop of the connection, before it takes the lock. -/
  | closing (accountId : RelayAccountId)
  deriving DecidableEq

/-- The service and the calls that are made of it. -/
structure Service where
  states : ConnectionStates
  calls : ℕ → Call

/-- The steps of the calls. -/
inductive ServiceAction where
  /-- An idle call asks for the status, and the store answers. -/
  | status (call : ℕ) (accountId : RelayAccountId) (contains : Except CredentialStoreError Bool)
  /-- An idle call connects, up to its reservation. -/
  | connect (call : ℕ) (accountId : RelayAccountId)
  /-- The manager connects. -/
  | answer (call : ℕ) (loaded : Except CredentialStoreError Bool)
    (connection : Except RelayTransportErrorKind Unit)
  /-- The connection is closed, since it is dropped. -/
  | close (call : ℕ)
  /-- The section that follows takes the lock. -/
  | lock (call : ℕ)

namespace Service

/-- The service that `RelayClientService::new` returns. -/
def new : Service where
  states := ∅
  calls := fun _ => .idle

/-- Moves a call. -/
def setCall (call : ℕ) (next : Call) (service : Service) : Service :=
  { service with calls := Function.update service.calls call next }

/-- One step of a call. -/
def step (service : Service) : ServiceAction → Service
  -- The credential is looked for without the lock.
  | .status call accountId contains =>
    match service.calls call with
    | .idle =>
      service.setCall call (.checking accountId (RelayConnectionManager.hasCredential contains))
    | _ => service
  | .connect call accountId =>
    -- The place is reserved under the lock, before the network is used.
    match service.calls call with
    | .idle =>
      match RelayClientService.reserve accountId service.states with
      | (.ok (), states) => { service with states }.setCall call (.reserved accountId)
      | (.error _, states) => { service with states }
    | _ => service
  | .answer call loaded connection =>
    match service.calls call with
    | .reserved accountId =>
      service.setCall call (.answered accountId (RelayConnectionManager.connect loaded connection))
    | _ => service
  | .close call =>
    match service.calls call with
    | .alive accountId => service.setCall call (.closing accountId)
    | _ => service
  | .lock call =>
    match service.calls call with
    | .checking accountId credentialResult =>
      { service with
        states := (RelayClientService.status accountId credentialResult service.states).2 }.setCall
          call .idle
    | .answered accountId result =>
      match RelayClientService.publish accountId result service.states with
      | (.ok (), states) => { service with states }.setCall call (.alive accountId)
      | (.error _, states) => { service with states }.setCall call .idle
    | .closing accountId =>
      { service with states := RelayClientService.dropped accountId service.states }.setCall
        call .idle
    | _ => service

/-- What actions leave, in any order. -/
def run (actions : List ServiceAction) : Service := actions.foldl step new

end Service

end Mio.Relay
