import Mio.Relay.Lifecycle

/-!
# The runtime of the relay connections

`DesktopRelayRuntimeExecutor` and `DesktopRelayOrchestrator` of
`apps/desktop/src-tauri/src/relay_runtime.rs`. A connection, or the wait for a retry, is a worker
with a generation, and the task owner has one entry for each account. The workers send their events
to the pump, which takes an event, compares its generation with the entry of its account, and
applies it to the lifecycle of the account. Each of these is a step, since other threads may start
and stop accounts between them.

The map of the entries and the map of the accounts have a lock each. A call that holds the lock of
the accounts is one step, at the moment at which it holds the other lock as well. An entry that is
removed cancels its worker after the lock is released, and then joins it; the thread that waits for
this is not modelled as waiting, so the runs here include those in which it does. Whether the
operating system spawns a thread is given to the step.
-/

namespace Mio.Desktop.RelayRuntime

open Relay Std

/-! ## Events and workers -/

/-- Why the executor refuses an action. -/
inductive DesktopRelayRuntimeError where
  | alreadyActive
  | workerUnavailable
  | connectionTaskRequired
  | unexpectedConnectionTask
  deriving DecidableEq

/-- What a worker reports. -/
inductive DesktopRelayRuntimeEventKind where
  | connected
  | connectionFailed (errorCode : RelayConnectionErrorCode)
  | unexpectedDisconnect (errorCode : RelayConnectionErrorCode)
  | retryElapsed
  deriving DecidableEq

/-- A report of a worker, with its account and generation. -/
structure DesktopRelayRuntimeEvent where
  accountId : RelayAccountId
  generation : UInt64
  kind : DesktopRelayRuntimeEventKind
  deriving DecidableEq

/-- Whether the worker ends with the event. -/
def DesktopRelayRuntimeEvent.isTerminal (event : DesktopRelayRuntimeEvent) : Bool :=
  event.kind != .connected

/-- Where a worker is. -/
inductive WorkerPhase where
  /-- Its task runs, and has not reported a connection. -/
  | connecting
  | connected
  /-- It waits for the delay of a retry. -/
  | waiting
  /-- It was not cancelled when it looked, and sends. -/
  | sending (kind : DesktopRelayRuntimeEventKind)
  | finished
  deriving DecidableEq

/-- A worker of the executor. -/
structure Worker where
  accountId : RelayAccountId
  generation : UInt64
  cancelled : Bool
  phase : WorkerPhase
  deriving DecidableEq

namespace Worker

/-- The task calls `report_connected`, up to the send. -/
def reportConnected (worker : Worker) : Worker :=
  if worker.phase = .connecting ∧ worker.cancelled = false then
    { worker with phase := .sending .connected }
  else worker

/-- The task has returned, and the worker looks whether it is cancelled. -/
def taskReturned (errorCode : RelayConnectionErrorCode) (worker : Worker) : Worker :=
  match worker.phase with
  | .connecting =>
    { worker with
      phase := if worker.cancelled then .finished else .sending (.connectionFailed errorCode) }
  | .connected =>
    { worker with
      phase := if worker.cancelled then .finished else .sending (.unexpectedDisconnect errorCode) }
  | _ => worker

/-- The wait for the retry is over, by its time or by a cancellation. -/
def waitReturned (worker : Worker) : Worker :=
  match worker.phase with
  | .waiting =>
    { worker with phase := if worker.cancelled then .finished else .sending .retryElapsed }
  | _ => worker

/-- After it has sent an event. -/
def sent (kind : DesktopRelayRuntimeEventKind) (worker : Worker) : Worker :=
  { worker with phase := if kind = .connected then .connected else .finished }

end Worker

/-! ## The executor -/

/-- The task of an account. -/
structure OwnedTaskEntry where
  generation : UInt64
  /-- The position of the worker that the entry owns. -/
  worker : ℕ
  deriving DecidableEq

/-- The tasks by account, and the workers that were ever spawned. -/
structure DesktopRelayRuntimeExecutor where
  tasks : ExtTreeMap String OwnedTaskEntry
  nextGeneration : UInt64
  workers : List Worker
  /-- What the workers have sent, and the pump has not received. -/
  events : List DesktopRelayRuntimeEvent

namespace DesktopRelayRuntimeExecutor

/-- An executor without tasks. -/
def new : DesktopRelayRuntimeExecutor where
  tasks := ∅
  nextGeneration := 1
  workers := []
  events := []

/-- `allocate_generation`, which wraps around. -/
def allocateGeneration (executor : DesktopRelayRuntimeExecutor) :
    UInt64 × DesktopRelayRuntimeExecutor :=
  (executor.nextGeneration, { executor with nextGeneration := executor.nextGeneration + 1 })

/-- `insert_with` of the task owner, where `create` spawns a worker in the given phase. -/
def insertWith (accountId : RelayAccountId) (generation : UInt64) (phase : WorkerPhase)
    (spawned : Bool) (executor : DesktopRelayRuntimeExecutor) :
    Except DesktopRelayRuntimeError DesktopRelayRuntimeExecutor :=
  if accountId.value ∈ executor.tasks then .error .alreadyActive
  else if !spawned then .error .workerUnavailable
  else
    .ok { executor with
      tasks := executor.tasks.insert accountId.value
        { generation, worker := executor.workers.length }
      workers := executor.workers ++ [{ accountId, generation, cancelled := false, phase }] }

/-- `start_connection` and `schedule_retry`, which differ in what their worker does. -/
def spawn (accountId : RelayAccountId) (phase : WorkerPhase) (spawned : Bool)
    (executor : DesktopRelayRuntimeExecutor) :
    Except DesktopRelayRuntimeError UInt64 × DesktopRelayRuntimeExecutor :=
  let (generation, executor) := executor.allocateGeneration
  match executor.insertWith accountId generation phase spawned with
  | .error e => (.error e, executor)
  | .ok executor => (.ok generation, executor)

/-- Starts a connection of the account. -/
def startConnection (accountId : RelayAccountId) (spawned : Bool) :
    DesktopRelayRuntimeExecutor →
      Except DesktopRelayRuntimeError UInt64 × DesktopRelayRuntimeExecutor :=
  spawn accountId .connecting spawned

/-- The wait takes `delay_ms`, which is real time: its end is a step of the worker. -/
def scheduleRetry (accountId : RelayAccountId) (_delayMs : UInt64) (spawned : Bool) :
    DesktopRelayRuntimeExecutor →
      Except DesktopRelayRuntimeError UInt64 × DesktopRelayRuntimeExecutor :=
  spawn accountId .waiting spawned

/-- `stop_by_name`, up to the release of the lock. -/
def stop (accountId : RelayAccountId) (executor : DesktopRelayRuntimeExecutor) :
    DesktopRelayRuntimeExecutor :=
  { executor with tasks := executor.tasks.erase accountId.value }

/-- Whether the generation is the one of the account's task. -/
def isCurrent (accountId : RelayAccountId) (generation : UInt64)
    (executor : DesktopRelayRuntimeExecutor) : Bool :=
  match executor.tasks[accountId.value]? with
  | some entry => entry.generation == generation
  | none => false

/-- `stop_if_generation`, up to the release of the lock. -/
def stopIfGeneration (accountId : RelayAccountId) (generation : UInt64)
    (executor : DesktopRelayRuntimeExecutor) : Bool × DesktopRelayRuntimeExecutor :=
  if (executor.tasks[accountId.value]?.map (·.generation)) ≠ some generation then
    (false, executor)
  else (true, executor.stop accountId)

/-- Whether the event is the current one of its account. A terminal event gives up the entry. -/
def acceptCurrentEvent (event : DesktopRelayRuntimeEvent) (executor : DesktopRelayRuntimeExecutor) :
    Bool × DesktopRelayRuntimeExecutor :=
  if event.isTerminal then executor.stopIfGeneration event.accountId event.generation
  else (executor.isCurrent event.accountId event.generation, executor)

/-- `execute`, with or without a connection task. -/
def execute (accountId : RelayAccountId) (action : RelayLifecycleAction) (connectionTask : Bool)
    (spawned : Bool) (executor : DesktopRelayRuntimeExecutor) :
    Except DesktopRelayRuntimeError (Option UInt64) × DesktopRelayRuntimeExecutor :=
  match action, connectionTask with
  | .startConnection, true =>
    let (result, executor) := executor.startConnection accountId spawned
    (result.map some, executor)
  | .startConnection, false => (.error .connectionTaskRequired, executor)
  | .scheduleRetry delayMs, false =>
    let (result, executor) := executor.scheduleRetry accountId delayMs spawned
    (result.map some, executor)
  | .closeConnection, false | .cancelRetry, false => (.ok none, executor.stop accountId)
  | .none, false => (.ok none, executor)
  | _, true => (.error .unexpectedConnectionTask, executor)

/-- `execute_action`: only a start has a task. -/
def executeAction (accountId : RelayAccountId) (action : RelayLifecycleAction) (spawned : Bool)
    (executor : DesktopRelayRuntimeExecutor) :
    Except DesktopRelayRuntimeError Unit × DesktopRelayRuntimeExecutor :=
  let (result, executor) :=
    executor.execute accountId action (action == .startConnection) spawned
  (result.map fun _ => (), executor)

/-- Changes one worker. -/
def setWorker (position : ℕ) (change : Worker → Worker) (executor : DesktopRelayRuntimeExecutor) :
    DesktopRelayRuntimeExecutor :=
  { executor with workers := executor.workers.modify position change }

/-- The worker sends the event that it was about to send. -/
def send (position : ℕ) (executor : DesktopRelayRuntimeExecutor) : DesktopRelayRuntimeExecutor :=
  match executor.workers[position]? with
  | some { accountId, generation, phase := .sending kind, .. } =>
    { executor.setWorker position (·.sent kind) with
      events := executor.events ++ [{ accountId, generation, kind }] }
  | _ => executor

/-- The drop of an entry cancels its worker. -/
def cancel (position : ℕ) (executor : DesktopRelayRuntimeExecutor) : DesktopRelayRuntimeExecutor :=
  match executor.workers[position]? with
  | some worker =>
    if executor.tasks[worker.accountId.value]?.map (·.worker) = some position then executor
    else executor.setWorker position ({ · with cancelled := true })
  | none => executor

end DesktopRelayRuntimeExecutor

/-! ## The orchestrator -/

/-- Why the orchestrator refuses a call. -/
inductive DesktopRelayOrchestratorError where
  | lifecycle (error : RelayLifecycleTransitionError)
  | runtime (error : DesktopRelayRuntimeError)
  deriving DecidableEq

/-- An applied event, with the status after it. -/
structure DesktopRelayOrchestratorUpdate where
  event : DesktopRelayRuntimeEvent
  status : RelayRuntimeStatus
  deriving DecidableEq

/-- `DesktopRelayOrchestratorInner`. Of an account it has the lifecycle; the factory of the
connection tasks is what a worker runs. -/
structure Inner where
  executor : DesktopRelayRuntimeExecutor
  accounts : ExtTreeMap String RelayLifecycle

namespace Inner

/-- Keeps the lifecycle of the account. -/
def setAccount (accountId : RelayAccountId) (lifecycle : RelayLifecycle) (inner : Inner) : Inner :=
  { inner with accounts := inner.accounts.insert accountId.value lifecycle }

/-- An operation of the lifecycle has succeeded: its action is executed. -/
def executeAction (accountId : RelayAccountId) (action : RelayLifecycleAction)
    (lifecycle : RelayLifecycle) (spawned : Bool) (inner : Inner) :
    Except DesktopRelayOrchestratorError RelayRuntimeStatus × Inner :=
  match inner.executor.executeAction accountId action spawned with
  | (.error e, executor) =>
    (.error (.runtime e), { inner with executor }.setAccount accountId lifecycle.runtimeFailed)
  | (.ok (), executor) =>
    (.ok lifecycle.status, { inner with executor }.setAccount accountId lifecycle)

/-- Starts the account; one without a lifecycle gets a new one. -/
def start (accountId : RelayAccountId) (spawned : Bool) (inner : Inner) :
    Except DesktopRelayOrchestratorError RelayRuntimeStatus × Inner :=
  let lifecycle := inner.accounts[accountId.value]?.getD RelayLifecycle.new
  match lifecycle.start with
  | (.error e, lifecycle) => (.error (.lifecycle e), inner.setAccount accountId lifecycle)
  | (.ok action, lifecycle) => inner.executeAction accountId action lifecycle spawned

/-- What the event does to the lifecycle of its account. -/
def transition (event : DesktopRelayRuntimeEvent) (lifecycle : RelayLifecycle) :
    Except RelayLifecycleTransitionError RelayLifecycleAction × RelayLifecycle :=
  match event.kind with
  | .connected =>
    let (answer, lifecycle) := lifecycle.connected
    (answer.map fun () => .none, lifecycle)
  | .connectionFailed errorCode => lifecycle.connectionFailed errorCode
  | .unexpectedDisconnect errorCode => lifecycle.unexpectedDisconnect errorCode
  | .retryElapsed => lifecycle.retryElapsed

/-- Applies an event to the lifecycle of its account, and executes what it asks for. -/
def applyEvent (event : DesktopRelayRuntimeEvent) (spawned : Bool) (inner : Inner) :
    Except DesktopRelayOrchestratorError (Option DesktopRelayOrchestratorUpdate) × Inner :=
  match inner.accounts[event.accountId.value]? with
  | none => (.ok none, inner)
  | some lifecycle =>
    match transition event lifecycle with
    | (.error e, lifecycle) =>
      (.error (.lifecycle e), inner.setAccount event.accountId lifecycle)
    | (.ok action, lifecycle) =>
      let (result, inner) := inner.executeAction event.accountId action lifecycle spawned
      (result.map fun status => some { event, status }, inner)

/-- The status of the account. -/
def status (accountId : RelayAccountId) (inner : Inner) : RelayRuntimeStatus :=
  (inner.accounts[accountId.value]?.getD RelayLifecycle.new).status

/-- Stops the account and forgets it. -/
def stop (accountId : RelayAccountId) (inner : Inner) :
    Except DesktopRelayOrchestratorError Bool × Inner :=
  match inner.accounts[accountId.value]? with
  | none => (.ok false, inner)
  | some lifecycle =>
    let (action, lifecycle) := lifecycle.stop
    match inner.executor.executeAction accountId action true with
    | (.error e, executor) =>
      (.error (.runtime e), { inner with executor }.setAccount accountId lifecycle)
    | (.ok (), executor) =>
      let stopped :=
        if lifecycle.status.phase = .stopping then lifecycle.stopped else (.ok (), lifecycle)
      match stopped with
      | (.error e, lifecycle) =>
        (.error (.lifecycle e), { inner with executor }.setAccount accountId lifecycle)
      | (.ok (), _) => (.ok true, { executor, accounts := inner.accounts.erase accountId.value })

end Inner

/-! ## Threads -/

/-- Where the pump is. -/
inductive Pump where
  | waiting
  /-- It has received the event, and not yet compared its generation. -/
  | received (event : DesktopRelayRuntimeEvent)
  /-- It has accepted the event, and not yet applied it. -/
  | accepted (event : DesktopRelayRuntimeEvent)
  | ended
  deriving DecidableEq

/-- The orchestrator with its pump and the updates that were not polled. -/
structure DesktopRelayOrchestrator where
  inner : Inner
  pump : Pump
  pumpCancelled : Bool
  updates : List (Except DesktopRelayOrchestratorError DesktopRelayOrchestratorUpdate)

/-- The steps of the threads. -/
inductive RelayAction where
  /-- `start`, after it has seen that the pump is available. -/
  | start (accountId : RelayAccountId) (spawned : Bool)
  | stop (accountId : RelayAccountId)
  /-- The pump receives the next event. -/
  | receive
  /-- The pump compares the generation of the event. -/
  | accept
  /-- The pump applies the event. -/
  | apply (spawned : Bool)
  /-- The pump sees that it is cancelled, and ends. -/
  | endPump
  | pollNext
  /-- `shutdown`, up to the join of the pump. -/
  | cancelPump
  /-- `shutdown` after the join, first the entries and then the accounts. -/
  | shutdownTasks
  | clearAccounts
  | reportConnected (worker : ℕ)
  | taskReturned (worker : ℕ) (errorCode : RelayConnectionErrorCode)
  | waitReturned (worker : ℕ)
  | send (worker : ℕ)
  | cancel (worker : ℕ)
  deriving DecidableEq

namespace DesktopRelayOrchestrator

/-- What `desktop_relay_orchestrator` returns, when the pump is spawned. -/
def new : DesktopRelayOrchestrator where
  inner := { executor := .new, accounts := ∅ }
  pump := .waiting
  pumpCancelled := false
  updates := []

/-- A change of the executor alone. -/
def onExecutor (change : DesktopRelayRuntimeExecutor → DesktopRelayRuntimeExecutor)
    (orchestrator : DesktopRelayOrchestrator) : DesktopRelayOrchestrator :=
  { orchestrator with
    inner := { orchestrator.inner with executor := change orchestrator.inner.executor } }

/-- The step of the pump that receives an event. -/
def receive (orchestrator : DesktopRelayOrchestrator) : DesktopRelayOrchestrator :=
  match orchestrator.pump, orchestrator.inner.executor.events with
  | .waiting, event :: events =>
    { orchestrator.onExecutor ({ · with events }) with pump := .received event }
  | _, _ => orchestrator

/-- The step of the pump that keeps the event, or drops it. -/
def accept (orchestrator : DesktopRelayOrchestrator) : DesktopRelayOrchestrator :=
  match orchestrator.pump with
  | .received event =>
    let (accepted, executor) := orchestrator.inner.executor.acceptCurrentEvent event
    { orchestrator.onExecutor (fun _ => executor) with
      pump := if accepted then .accepted event else .waiting }
  | _ => orchestrator

/-- The step of the pump that applies the event. -/
def apply (spawned : Bool) (orchestrator : DesktopRelayOrchestrator) : DesktopRelayOrchestrator :=
  match orchestrator.pump with
  | .accepted event =>
    let (result, inner) := orchestrator.inner.applyEvent event spawned
    let updates :=
      match result with
      | .ok (some update) => [.ok update]
      | .ok none => []
      | .error e => [.error e]
    { orchestrator with inner, pump := .waiting, updates := orchestrator.updates ++ updates }
  | _ => orchestrator

/-- One step of a thread. -/
def step (orchestrator : DesktopRelayOrchestrator) : RelayAction → DesktopRelayOrchestrator
  | .start accountId spawned =>
    { orchestrator with inner := (orchestrator.inner.start accountId spawned).2 }
  | .stop accountId => { orchestrator with inner := (orchestrator.inner.stop accountId).2 }
  | .receive => orchestrator.receive
  | .accept => orchestrator.accept
  | .apply spawned => orchestrator.apply spawned
  | .endPump =>
    if orchestrator.pump = .waiting ∧ orchestrator.pumpCancelled = true then
      { orchestrator with pump := .ended }
    else orchestrator
  | .pollNext => { orchestrator with updates := orchestrator.updates.tail }
  | .cancelPump => { orchestrator with pumpCancelled := true }
  | .shutdownTasks =>
    if orchestrator.pump = .ended then orchestrator.onExecutor ({ · with tasks := ∅ })
    else orchestrator
  | .clearAccounts =>
    if orchestrator.pump = .ended then
      { orchestrator with inner := { orchestrator.inner with accounts := ∅ } }
    else orchestrator
  | .reportConnected worker => orchestrator.onExecutor (·.setWorker worker Worker.reportConnected)
  | .taskReturned worker errorCode =>
    orchestrator.onExecutor (·.setWorker worker (Worker.taskReturned errorCode))
  | .waitReturned worker => orchestrator.onExecutor (·.setWorker worker Worker.waitReturned)
  | .send worker => orchestrator.onExecutor (·.send worker)
  | .cancel worker => orchestrator.onExecutor (·.cancel worker)

/-- What actions leave, in any order. -/
def run (actions : List RelayAction) : DesktopRelayOrchestrator := actions.foldl step new

end DesktopRelayOrchestrator

end Mio.Desktop.RelayRuntime
