import Mio.Relay.RelayClient

/-!
# The lifecycle of a relay account

`RelayLifecycle` of `crates/moe-relay-client/src/lifecycle.rs`. An operation returns what its caller
has to do, or that it is rejected; where the source changes the lifecycle in place, the lifecycle
that it leaves is returned with the answer, also with a rejection.
-/

namespace Mio.Relay

/-- The delays before the retries, in milliseconds. -/
def relayRetryDelaysMs : List UInt64 := [1000, 2000, 5000, 10000, 30000]

/-- The phases of a connection. -/
inductive RelayRuntimePhase where
  | offline
  | connecting
  | connected
  | retryWaiting
  | stopping
  | error
  deriving DecidableEq

/-- What is to be done after an operation. -/
inductive RelayLifecycleAction where
  | none
  | startConnection
  | closeConnection
  | cancelRetry
  | scheduleRetry (delayMs : UInt64)
  deriving DecidableEq

/-- Why an operation is refused. -/
inductive RelayLifecycleTransitionError where
  | alreadyActive
  | invalidTransition
  deriving DecidableEq

/-- The status of a connection. -/
structure RelayRuntimeStatus where
  phase : RelayRuntimePhase
  retryAttempt : UInt8
  nextRetryDelayMs : Option UInt64
  lastErrorCode : Option RelayConnectionErrorCode
  deriving DecidableEq

/-- The state machine of a connection. -/
structure RelayLifecycle where
  status : RelayRuntimeStatus
  deriving DecidableEq

/-- Whether a retry may help against the error. -/
def isRetryableConnectionError (errorCode : RelayConnectionErrorCode) : Bool :=
  errorCode == .relayUnavailable || errorCode == .protocol

namespace RelayLifecycle

/-- A connection that was never started. -/
def new : RelayLifecycle := ⟨⟨.offline, 0, none, none⟩⟩

/-- The status without anything that is remembered. -/
def resetOffline (_lifecycle : RelayLifecycle) : RelayLifecycle := new

/-- Starts a connection that is offline or has failed. -/
def start (lifecycle : RelayLifecycle) :
    Except RelayLifecycleTransitionError RelayLifecycleAction × RelayLifecycle :=
  match lifecycle.status.phase with
  | .offline | .error => (.ok .startConnection, ⟨⟨.connecting, 0, none, none⟩⟩)
  | .connecting | .connected | .retryWaiting | .stopping => (.error .alreadyActive, lifecycle)

/-- The connection is there; the retries are counted anew. -/
def connected (lifecycle : RelayLifecycle) :
    Except RelayLifecycleTransitionError Unit × RelayLifecycle :=
  if lifecycle.status.phase ≠ .connecting then (.error .invalidTransition, lifecycle)
  else (.ok (), ⟨⟨.connected, 0, none, none⟩⟩)

/-- After a loss the next retry is scheduled, if there is one and it may help. -/
def afterConnectionLoss (errorCode : RelayConnectionErrorCode) (lifecycle : RelayLifecycle) :
    RelayLifecycleAction × RelayLifecycle :=
  let status :=
    { lifecycle.status with lastErrorCode := some errorCode, nextRetryDelayMs := none }
  match isRetryableConnectionError errorCode, relayRetryDelaysMs[status.retryAttempt.toNat]? with
  | true, some delayMs =>
    (.scheduleRetry delayMs,
      ⟨{ status with
        phase := .retryWaiting
        retryAttempt := status.retryAttempt + 1
        nextRetryDelayMs := some delayMs }⟩)
  | _, _ => (.none, ⟨{ status with phase := .error }⟩)

/-- The connection could not be made. -/
def connectionFailed (errorCode : RelayConnectionErrorCode) (lifecycle : RelayLifecycle) :
    Except RelayLifecycleTransitionError RelayLifecycleAction × RelayLifecycle :=
  if lifecycle.status.phase ≠ .connecting then (.error .invalidTransition, lifecycle)
  else
    let (action, lifecycle) := lifecycle.afterConnectionLoss errorCode
    (.ok action, lifecycle)

/-- The connection was lost. -/
def unexpectedDisconnect (errorCode : RelayConnectionErrorCode) (lifecycle : RelayLifecycle) :
    Except RelayLifecycleTransitionError RelayLifecycleAction × RelayLifecycle :=
  if lifecycle.status.phase ≠ .connected then (.error .invalidTransition, lifecycle)
  else
    let (action, lifecycle) := lifecycle.afterConnectionLoss errorCode
    (.ok action, lifecycle)

/-- The delay is over, and the connection is made again. -/
def retryElapsed (lifecycle : RelayLifecycle) :
    Except RelayLifecycleTransitionError RelayLifecycleAction × RelayLifecycle :=
  if lifecycle.status.phase ≠ .retryWaiting then (.error .invalidTransition, lifecycle)
  else
    (.ok .startConnection,
      ⟨{ lifecycle.status with phase := .connecting, nextRetryDelayMs := none }⟩)

/-- Stops, from every phase. -/
def stop (lifecycle : RelayLifecycle) : RelayLifecycleAction × RelayLifecycle :=
  match lifecycle.status.phase with
  | .offline | .error => (.none, lifecycle.resetOffline)
  | .connecting | .connected =>
    (.closeConnection,
      ⟨{ lifecycle.status with phase := .stopping, nextRetryDelayMs := none }⟩)
  | .retryWaiting => (.cancelRetry, lifecycle.resetOffline)
  | .stopping => (.none, lifecycle)

/-- The stop is over. -/
def stopped (lifecycle : RelayLifecycle) :
    Except RelayLifecycleTransitionError Unit × RelayLifecycle :=
  if lifecycle.status.phase ≠ .stopping then (.error .invalidTransition, lifecycle)
  else (.ok (), lifecycle.resetOffline)

/-- The runtime could not do what it was to do. -/
def runtimeFailed (lifecycle : RelayLifecycle) : RelayLifecycle :=
  ⟨{ lifecycle.status with
    phase := .error, nextRetryDelayMs := none, lastErrorCode := some .runtimeUnavailable }⟩

end RelayLifecycle

end Mio.Relay
