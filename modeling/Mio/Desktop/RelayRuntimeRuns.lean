import Mio.Library.Collect
import Mio.Desktop.RelayRuntime

/-!
# The events of the current generation

The pump compares the generation of an event with the entry of its account, and applies the event in
a later step. What can be said of the later step is what was true at the comparison, as long as the
account is neither started nor stopped in between (`Accepted`), since every other step leaves its
lifecycle and its entry as they are (`step_account`).
-/

namespace Mio.Desktop.RelayRuntime

open Library Relay Std DesktopRelayOrchestrator

/-- The lifecycle and the entry of an account. -/
def Inner.account (name : String) (inner : Inner) : Option RelayLifecycle × Option OwnedTaskEntry :=
  (inner.accounts[name]?, inner.executor.tasks[name]?)

/-- The action starts or stops the account. -/
def RelayAction.Disturbs (name : String) : RelayAction → Prop
  | start accountId _ | stop accountId => accountId.value = name
  | _ => False

/-- The generation of the event is the one that the task owner has for the account. -/
def Owned (orchestrator : DesktopRelayOrchestrator) (event : DesktopRelayRuntimeEvent) : Prop :=
  orchestrator.inner.executor.isCurrent event.accountId event.generation = true

instance (orchestrator : DesktopRelayOrchestrator) (event : DesktopRelayRuntimeEvent) :
    Decidable (Owned orchestrator event) :=
  inferInstanceAs (Decidable (_ = true))

/-- The actions that may change the lifecycle or the entry of an account. -/
inductive Changes (orchestrator : DesktopRelayOrchestrator) (name : String) : RelayAction → Prop
  | start (accountId : RelayAccountId) (spawned : Bool) (h : accountId.value = name) :
    Changes orchestrator name (.start accountId spawned)
  | stop (accountId : RelayAccountId) (h : accountId.value = name) :
    Changes orchestrator name (.stop accountId)
  | accept (event : DesktopRelayRuntimeEvent) (hpump : orchestrator.pump = .received event)
    (hterminal : event.isTerminal = true) (howned : Owned orchestrator event)
    (h : event.accountId.value = name) : Changes orchestrator name .accept
  | apply (event : DesktopRelayRuntimeEvent) (spawned : Bool)
    (hpump : orchestrator.pump = .accepted event) (h : event.accountId.value = name) :
    Changes orchestrator name (.apply spawned)
  | shutdownTasks (hpump : orchestrator.pump = .ended) : Changes orchestrator name .shutdownTasks
  | clearAccounts (hpump : orchestrator.pump = .ended) : Changes orchestrator name .clearAccounts

/-- After `before` the pump has received the event, with a generation that is owned then, and
accepts it. `between` has followed. -/
structure Accepted (event : DesktopRelayRuntimeEvent)
    (before between : List RelayAction) : Prop where
  received : (run before).pump = .received event
  owned : Owned (run before) event
  /-- With the account left alone, its lifecycle is as it was, and its entry as well, unless the
  event is terminal: then there is none. -/
  kept : (∀ action ∈ between, ¬action.Disturbs event.accountId.value) →
    (run (before ++ .accept :: between)).inner.account event.accountId.value =
      ((run before).inner.accounts[event.accountId.value]?,
        if event.isTerminal then none
        else (run before).inner.executor.tasks[event.accountId.value]?)

/-- What the lifecycle of an account has to do with the events, after the actions. -/
structure EventLaws (actions : List RelayAction) : Prop where
  /-- An event that the pump is to apply has been accepted. -/
  accepted : ∀ event, (run actions).pump = .accepted event →
    ∃ before between, actions = before ++ .accept :: between ∧ Accepted event before between
  /-- An event with a generation that is not owned is dropped, and nothing else happens. -/
  dropped : ∀ event, (run actions).pump = .received event → ¬Owned (run actions) event →
    (run actions).step .accept = { run actions with pump := .waiting }
  /-- The lifecycle and the entry of an account change in a call for it, by an event of it, and in a
  shutdown once the pump has ended. -/
  changes : ∀ action name,
    ((run actions).step action).inner.account name ≠ (run actions).inner.account name →
      Changes (run actions) name action
  /-- A lifecycle does not change before the event is applied. -/
  lifecycle : ((run actions).step .accept).inner.accounts = (run actions).inner.accounts
  /-- An event is from a worker of its account and its generation. -/
  produced : ∀ event, (event ∈ (run actions).inner.executor.events ∨
      (run actions).pump = .received event ∨ (run actions).pump = .accepted event) →
    ∃ worker ∈ (run actions).inner.executor.workers,
      worker.accountId = event.accountId ∧ worker.generation = event.generation

/-! ## The entries of the executor -/

namespace DesktopRelayRuntimeExecutor

variable {executor : DesktopRelayRuntimeExecutor} {accountId : RelayAccountId} {name : String}

/-- A stopped account has no task. -/
theorem stop_tasks_self (executor : DesktopRelayRuntimeExecutor) (accountId : RelayAccountId) :
    (executor.stop accountId).tasks[accountId.value]? = none := by
  simp [stop]

/-- A stop leaves the tasks of the other accounts. -/
theorem stop_tasks (hname : accountId.value ≠ name) :
    (executor.stop accountId).tasks[name]? = executor.tasks[name]? := by
  unfold stop
  rw [ExtTreeMap.getElem?_erase, if_neg]
  simpa using hname

/-- A spawned worker has the entry of its account. -/
theorem insertWith_eq_ok {generation : UInt64} {phase : WorkerPhase} {spawned : Bool}
    {next : DesktopRelayRuntimeExecutor}
    (h : executor.insertWith accountId generation phase spawned = .ok next) :
    next = { executor with
      tasks := executor.tasks.insert accountId.value
        { generation, worker := executor.workers.length }
      workers := executor.workers ++ [{ accountId, generation, cancelled := false, phase }] } := by
  unfold insertWith at h
  split_ifs at h
  exact (Except.ok.inj h).symm

/-- A spawn leaves the tasks of the other accounts. -/
theorem spawn_tasks {phase : WorkerPhase} {spawned : Bool} (hname : accountId.value ≠ name) :
    (executor.spawn accountId phase spawned).2.tasks[name]? = executor.tasks[name]? := by
  unfold spawn allocateGeneration
  dsimp only
  split
  · rfl
  · next next hnext =>
    obtain rfl := insertWith_eq_ok hnext
    show (executor.tasks.insert _ _)[name]? = executor.tasks[name]?
    rw [ExtTreeMap.getElem?_insert, if_neg]
    simpa using hname

/-- An action is about the entry of its account only. -/
theorem executeAction_tasks {action : RelayLifecycleAction} {spawned : Bool}
    (hname : accountId.value ≠ name) :
    (executor.executeAction accountId action spawned).2.tasks[name]? = executor.tasks[name]? := by
  unfold executeAction execute
  cases action with
  | none => rfl
  | startConnection => exact spawn_tasks hname
  | closeConnection => exact stop_tasks hname
  | cancelRetry => exact stop_tasks hname
  | scheduleRetry delayMs => exact spawn_tasks hname

/-- A generation is current when the account's task has it. -/
theorem isCurrent_iff {generation : UInt64} :
    executor.isCurrent accountId generation = true ↔
      executor.tasks[accountId.value]?.map (·.generation) = some generation := by
  unfold isCurrent
  rcases executor.tasks[accountId.value]? with _ | entry
  · simp
  · simp

/-- An event is accepted when its generation is owned, and a terminal one gives up the entry. -/
theorem acceptCurrentEvent_eq (event : DesktopRelayRuntimeEvent)
    (executor : DesktopRelayRuntimeExecutor) :
    executor.acceptCurrentEvent event =
      (executor.isCurrent event.accountId event.generation,
        if event.isTerminal = true ∧ executor.isCurrent event.accountId event.generation = true then
          executor.stop event.accountId
        else executor) := by
  have hcurrent := @isCurrent_iff executor event.accountId event.generation
  unfold acceptCurrentEvent stopIfGeneration
  by_cases h : executor.isCurrent event.accountId event.generation = true
  · have hsome := hcurrent.mp h
    simp only [h, hsome, ne_eq, not_true_eq_false, if_false, and_true]
    split <;> rfl
  · have hnone := fun hsome => h (hcurrent.mpr hsome)
    simp only [Bool.not_eq_true] at h
    rw [if_pos hnone]
    simp [h]

/-- Changing a worker leaves the tasks. -/
@[simp]
theorem setWorker_tasks (position : ℕ) (change : Worker → Worker) :
    (executor.setWorker position change).tasks = executor.tasks := rfl

/-- Sending leaves the tasks. -/
@[simp]
theorem send_tasks (position : ℕ) : (executor.send position).tasks = executor.tasks := by
  unfold send
  split <;> rfl

/-- Cancelling a worker leaves the tasks. -/
@[simp]
theorem cancel_tasks (position : ℕ) : (executor.cancel position).tasks = executor.tasks := by
  unfold cancel
  split
  · split_ifs <;> rfl
  · rfl

end DesktopRelayRuntimeExecutor

/-! ## One step -/

namespace Inner

variable {inner : Inner} {accountId : RelayAccountId} {name : String}

/-- Keeping a lifecycle leaves the other accounts. -/
theorem setAccount_account {lifecycle : RelayLifecycle} (hname : accountId.value ≠ name) :
    (inner.setAccount accountId lifecycle).account name = inner.account name := by
  have haccount : (inner.accounts.insert accountId.value lifecycle)[name]? =
      inner.accounts[name]? := by
    rw [ExtTreeMap.getElem?_insert, if_neg]
    simpa using hname
  exact Prod.ext haccount rfl

/-- An executor with the same task leaves the account. -/
theorem executor_account {executor : DesktopRelayRuntimeExecutor}
    (htasks : executor.tasks[name]? = inner.executor.tasks[name]?) :
    Inner.account name { inner with executor } = inner.account name :=
  Prod.ext rfl htasks

/-- An executed action leaves the other accounts. -/
theorem executeAction_account {action : RelayLifecycleAction} {lifecycle : RelayLifecycle}
    {spawned : Bool} (hname : accountId.value ≠ name) :
    (inner.executeAction accountId action lifecycle spawned).2.account name =
      inner.account name := by
  have htasks :=
    @DesktopRelayRuntimeExecutor.executeAction_tasks inner.executor _ _ action spawned hname
  unfold executeAction
  split <;> next e executor hresult =>
    rw [setAccount_account hname]
    rw [hresult] at htasks
    exact executor_account htasks

/-- A start leaves the other accounts. -/
theorem start_account {spawned : Bool} (hname : accountId.value ≠ name) :
    (inner.start accountId spawned).2.account name = inner.account name := by
  unfold start
  dsimp only
  split
  · exact setAccount_account hname
  · exact executeAction_account hname

/-- An event leaves the other accounts. -/
theorem applyEvent_account {event : DesktopRelayRuntimeEvent} {spawned : Bool}
    (hname : event.accountId.value ≠ name) :
    (inner.applyEvent event spawned).2.account name = inner.account name := by
  unfold applyEvent
  split
  · rfl
  · split
    · exact setAccount_account hname
    · exact executeAction_account hname

/-- A stop leaves the other accounts. -/
theorem stop_account (hname : accountId.value ≠ name) :
    (inner.stop accountId).2.account name = inner.account name := by
  unfold stop
  split
  · rfl
  · next lifecycle _ =>
    have htasks := @DesktopRelayRuntimeExecutor.executeAction_tasks inner.executor _ _
      lifecycle.stop.1 true hname
    dsimp only
    split
    · next e executor hresult =>
      rw [hresult] at htasks
      rw [setAccount_account hname, executor_account htasks]
    · next executor hresult =>
      rw [hresult] at htasks
      generalize (if lifecycle.stop.2.status.phase = .stopping then lifecycle.stop.2.stopped
        else (.ok (), lifecycle.stop.2)) = stopped
      split
      · rw [setAccount_account hname, executor_account htasks]
      · have haccount : (inner.accounts.erase accountId.value)[name]? = inner.accounts[name]? := by
          rw [ExtTreeMap.getElem?_erase, if_neg]
          simpa using hname
        exact Prod.ext haccount htasks

end Inner

namespace DesktopRelayOrchestrator

variable {orchestrator : DesktopRelayOrchestrator} {event : DesktopRelayRuntimeEvent}

/-- What accepting an event does, by whether the account's task is the one that sent it. -/
theorem accept_eq (hpump : orchestrator.pump = .received event) :
    orchestrator.accept =
      { orchestrator.onExecutor fun executor =>
          if event.isTerminal = true ∧ Owned orchestrator event then
            executor.stop event.accountId
          else executor with
        pump := if Owned orchestrator event then .accepted event else .waiting } := by
  unfold accept Owned
  rw [hpump]
  dsimp only
  rw [DesktopRelayRuntimeExecutor.acceptCurrentEvent_eq]
  rfl

/-- The other actions leave them as they are. -/
theorem step_account {action : RelayAction} {name : String}
    (h : ¬Changes orchestrator name action) :
    (orchestrator.step action).inner.account name = orchestrator.inner.account name := by
  unfold step
  -- An account changes only by one of the actions that `Changes` names.
  cases action with
  | start accountId spawned => exact Inner.start_account fun heq => h (.start _ _ heq)
  | stop accountId => exact Inner.stop_account fun heq => h (.stop _ heq)
  | receive =>
    dsimp only [receive]
    split <;> rfl
  | accept =>
    dsimp only
    by_cases hpump : ∃ event, orchestrator.pump = .received event
    · obtain ⟨event, hpump⟩ := hpump
      rw [accept_eq hpump]
      show (Inner.account name { orchestrator.inner with executor := _ }) = _
      refine Inner.executor_account ?_
      -- An accepted event may stop the worker of its own account.
      split_ifs with hgiven
      · exact DesktopRelayRuntimeExecutor.stop_tasks
          fun heq => h (.accept event hpump hgiven.1 hgiven.2 heq)
      · rfl
    · unfold accept
      split
      · next event hevent => exact absurd ⟨event, hevent⟩ hpump
      · rfl
  | apply spawned =>
    dsimp only [apply]
    split
    · next event hpump =>
      exact Inner.applyEvent_account fun heq => h (.apply event spawned hpump heq)
    · rfl
  | endPump =>
    dsimp only
    split_ifs <;> rfl
  | pollNext => rfl
  | cancelPump => rfl
  | shutdownTasks =>
    dsimp only
    rw [if_neg fun hpump => h (.shutdownTasks hpump)]
  | clearAccounts =>
    dsimp only
    rw [if_neg fun hpump => h (.clearAccounts hpump)]
  | reportConnected worker => rfl
  | taskReturned worker errorCode => rfl
  | waitReturned worker => rfl
  | send worker => exact Inner.executor_account (by simp)
  | cancel worker => exact Inner.executor_account (by simp)

end DesktopRelayOrchestrator

/-! ## Workers -/

namespace DesktopRelayRuntimeExecutor

variable {executor : DesktopRelayRuntimeExecutor} {accountId : RelayAccountId}

/-- The account and the generation of each worker. -/
def identities (executor : DesktopRelayRuntimeExecutor) : List (RelayAccountId × UInt64) :=
  executor.workers.map fun worker => (worker.accountId, worker.generation)

/-- The workers stay, and there may be more; nothing is sent. -/
structure Extends (executor next : DesktopRelayRuntimeExecutor) : Prop where
  identities : executor.identities ⊆ next.identities
  events : next.events = executor.events

/-- An executor extends itself. -/
theorem Extends.refl (executor : DesktopRelayRuntimeExecutor) : Extends executor executor :=
  ⟨List.Subset.refl _, rfl⟩

/-- A spawn only adds a worker. -/
theorem spawn_extends {phase : WorkerPhase} {spawned : Bool} :
    Extends executor (executor.spawn accountId phase spawned).2 := by
  unfold spawn allocateGeneration
  dsimp only
  split
  · exact ⟨List.Subset.refl _, rfl⟩
  · next next hnext =>
    obtain rfl := insertWith_eq_ok hnext
    refine ⟨?_, rfl⟩
    unfold identities
    rw [List.map_append]
    exact List.subset_append_left _ _

/-- An action of the executor only adds workers. -/
theorem executeAction_extends {action : RelayLifecycleAction} {spawned : Bool} :
    Extends executor (executor.executeAction accountId action spawned).2 := by
  unfold executeAction execute
  cases action with
  | none => exact Extends.refl executor
  | startConnection => exact spawn_extends
  | closeConnection => exact ⟨List.Subset.refl _, rfl⟩
  | cancelRetry => exact ⟨List.Subset.refl _, rfl⟩
  | scheduleRetry delayMs => exact spawn_extends

/-- What a worker does, it does as the same worker. -/
theorem setWorker_identities {change : Worker → Worker}
    (hchange : ∀ worker, (change worker).accountId = worker.accountId ∧
      (change worker).generation = worker.generation) (position : ℕ) :
    (executor.setWorker position change).identities = executor.identities := by
  unfold identities setWorker
  refine List.ext_getElem? fun other => ?_
  rw [List.getElem?_map, List.getElem?_map, List.getElem?_modify]
  split_ifs
  · rcases executor.workers[other]? with _ | worker
    · rfl
    · simp [hchange worker]
  · simp

/-- What is sent is from a worker. -/
theorem send_identities (position : ℕ) :
    (executor.send position).identities = executor.identities ∧
      ∀ event ∈ (executor.send position).events, event ∈ executor.events ∨
        (event.accountId, event.generation) ∈ executor.identities := by
  unfold send
  split
  · next accountId generation cancelled kind hworker =>
    have hidentities : (executor.setWorker position (Worker.sent kind)).identities =
        executor.identities :=
      @setWorker_identities executor (Worker.sent kind) (fun _ => ⟨rfl, rfl⟩) position
    refine ⟨hidentities, fun event hevent => ?_⟩
    rcases List.mem_append.mp hevent with hevent | hevent
    · exact .inl hevent
    · obtain rfl := List.mem_singleton.mp hevent
      exact .inr (List.mem_map.mpr ⟨_, List.mem_of_getElem? hworker, rfl⟩)
  · exact ⟨rfl, fun event hevent => .inl hevent⟩

/-- Cancelling changes no worker's identity. -/
theorem cancel_identities (position : ℕ) :
    (executor.cancel position).identities = executor.identities := by
  unfold cancel
  split
  · split_ifs
    · rfl
    · exact @setWorker_identities executor (fun worker => { worker with cancelled := true })
        (fun _ => ⟨rfl, rfl⟩) position
  · rfl

/-- Cancelling sends nothing. -/
@[simp]
theorem cancel_events (position : ℕ) : (executor.cancel position).events = executor.events := by
  unfold cancel
  split
  · split_ifs <;> rfl
  · rfl

end DesktopRelayRuntimeExecutor

namespace Worker

/-- A worker that reports its connection keeps its identity. -/
theorem reportConnected_same (worker : Worker) :
    worker.reportConnected.accountId = worker.accountId ∧
      worker.reportConnected.generation = worker.generation := by
  unfold reportConnected
  split_ifs <;> exact ⟨rfl, rfl⟩

/-- A worker whose task returns keeps its identity. -/
theorem taskReturned_same (errorCode : RelayConnectionErrorCode) (worker : Worker) :
    (worker.taskReturned errorCode).accountId = worker.accountId ∧
      (worker.taskReturned errorCode).generation = worker.generation := by
  unfold taskReturned
  split <;> exact ⟨rfl, rfl⟩

/-- A worker whose wait is over keeps its identity. -/
theorem waitReturned_same (worker : Worker) :
    worker.waitReturned.accountId = worker.accountId ∧
      worker.waitReturned.generation = worker.generation := by
  unfold waitReturned
  split <;> exact ⟨rfl, rfl⟩

end Worker

namespace Inner

open DesktopRelayRuntimeExecutor (Extends executeAction_extends)

variable {inner : Inner} {accountId : RelayAccountId}

/-- An executed action only adds workers. -/
theorem executeAction_extends {action : RelayLifecycleAction} {lifecycle : RelayLifecycle}
    {spawned : Bool} :
    Extends inner.executor
      (inner.executeAction accountId action lifecycle spawned).2.executor := by
  have hextends :=
    @DesktopRelayRuntimeExecutor.executeAction_extends inner.executor accountId action spawned
  unfold executeAction
  split <;> next hresult =>
    rw [hresult] at hextends
    exact hextends

/-- A start only adds workers. -/
theorem start_extends {spawned : Bool} :
    Extends inner.executor (inner.start accountId spawned).2.executor := by
  unfold start
  dsimp only
  split
  · exact Extends.refl inner.executor
  · exact executeAction_extends

/-- An applied event only adds workers. -/
theorem applyEvent_extends {event : DesktopRelayRuntimeEvent} {spawned : Bool} :
    Extends inner.executor (inner.applyEvent event spawned).2.executor := by
  unfold applyEvent
  split
  · exact Extends.refl inner.executor
  · split
    · exact Extends.refl inner.executor
    · exact executeAction_extends

/-- A stop adds no worker and sends nothing. -/
theorem stop_extends : Extends inner.executor (inner.stop accountId).2.executor := by
  unfold stop
  split
  · exact Extends.refl inner.executor
  · next lifecycle _ =>
    have hextends := @DesktopRelayRuntimeExecutor.executeAction_extends inner.executor accountId
      lifecycle.stop.1 true
    dsimp only
    split <;> next hresult =>
      rw [hresult] at hextends
      first
        | exact hextends
        | split <;> exact hextends

end Inner

namespace DesktopRelayOrchestrator

variable {orchestrator : DesktopRelayOrchestrator} {event : DesktopRelayRuntimeEvent}

/-- The event has been sent, and the pump is not done with it. -/
def Pending (orchestrator : DesktopRelayOrchestrator) (event : DesktopRelayRuntimeEvent) : Prop :=
  event ∈ orchestrator.inner.executor.events ∨ orchestrator.pump = .received event ∨
    orchestrator.pump = .accepted event

/-- The event is from a worker. -/
def Produced (orchestrator : DesktopRelayOrchestrator) (event : DesktopRelayRuntimeEvent) : Prop :=
  (event.accountId, event.generation) ∈ orchestrator.inner.executor.identities

/-- An event that is pending after such a step was pending before it. -/
theorem pending_of_extends {inner : Inner}
    (hextends : orchestrator.inner.executor.Extends inner.executor)
    (h : Pending { orchestrator with inner } event) : Pending orchestrator event := by
  unfold Pending at h
  rw [hextends.events] at h
  exact h

/-- An event that is pending was pending before, or it is one that a worker sends, and the workers
stay. -/
theorem step_pending (action : RelayAction) :
    orchestrator.inner.executor.identities ⊆ (orchestrator.step action).inner.executor.identities ∧
      ∀ event, Pending (orchestrator.step action) event →
        Pending orchestrator event ∨ Produced orchestrator event := by
  have hrefl : orchestrator.inner.executor.identities ⊆ orchestrator.inner.executor.identities :=
    List.Subset.refl _
  -- The worker at `position` does something, and the event is none of its own.
  have hworker : ∀ (position : ℕ) (change : Worker → Worker),
      (∀ worker, (change worker).accountId = worker.accountId ∧
        (change worker).generation = worker.generation) →
      orchestrator.inner.executor.identities ⊆
        (orchestrator.inner.executor.setWorker position change).identities := by
    intro position change hchange
    rw [DesktopRelayRuntimeExecutor.setWorker_identities hchange]
    exact hrefl
  unfold step
  cases action with
  | start accountId spawned =>
    have hextends := @Inner.start_extends orchestrator.inner accountId spawned
    exact ⟨hextends.identities, fun event h => .inl (pending_of_extends hextends h)⟩
  | stop accountId =>
    have hextends := @Inner.stop_extends orchestrator.inner accountId
    exact ⟨hextends.identities, fun event h => .inl (pending_of_extends hextends h)⟩
  | receive =>
    dsimp only [receive]
    split
    · next first events hpump hevents =>
      refine ⟨hrefl, fun event h => .inl (.inl ?_)⟩
      rw [hevents]
      rcases h with h | h | h
      · exact List.mem_cons_of_mem _ h
      · cases h
        exact List.mem_cons_self
      · cases h
    · exact ⟨hrefl, fun event h => .inl h⟩
  | accept =>
    dsimp only
    by_cases hpump : ∃ event, orchestrator.pump = .received event
    · obtain ⟨first, hpump⟩ := hpump
      rw [accept_eq hpump]
      refine ⟨?_, fun event h => .inl ?_⟩
      · unfold onExecutor
        dsimp only
        split_ifs <;> exact hrefl
      · rcases h with h | h | h
        · refine .inl ?_
          unfold onExecutor at h
          dsimp only at h
          split_ifs at h <;> exact h
        · dsimp only at h
          split_ifs at h
        · dsimp only at h
          split_ifs at h
          cases h
          exact .inr (.inl hpump)
    · unfold accept
      split
      · next event hevent => exact absurd ⟨event, hevent⟩ hpump
      · exact ⟨hrefl, fun event h => .inl h⟩
  | apply spawned =>
    dsimp only [apply]
    split
    · next first hpump =>
      have hextends := @Inner.applyEvent_extends orchestrator.inner first spawned
      refine ⟨hextends.identities, fun event h => .inl (.inl ?_)⟩
      rcases h with h | h | h
      · rw [← hextends.events]
        exact h
      · cases h
      · cases h
    · exact ⟨hrefl, fun event h => .inl h⟩
  | endPump =>
    dsimp only
    split_ifs with hended
    · refine ⟨hrefl, fun event h => .inl (.inl ?_)⟩
      rcases h with h | h | h
      · exact h
      · cases h
      · cases h
    · exact ⟨hrefl, fun event h => .inl h⟩
  | pollNext => exact ⟨hrefl, fun event h => .inl h⟩
  | cancelPump => exact ⟨hrefl, fun event h => .inl h⟩
  | shutdownTasks =>
    dsimp only
    split_ifs <;> exact ⟨hrefl, fun event h => .inl h⟩
  | clearAccounts =>
    dsimp only
    split_ifs <;> exact ⟨hrefl, fun event h => .inl h⟩
  | reportConnected worker =>
    exact ⟨hworker worker _ Worker.reportConnected_same, fun event h => .inl h⟩
  | taskReturned worker errorCode =>
    exact ⟨hworker worker _ (Worker.taskReturned_same errorCode), fun event h => .inl h⟩
  | waitReturned worker =>
    exact ⟨hworker worker _ Worker.waitReturned_same, fun event h => .inl h⟩
  | send worker =>
    obtain ⟨hidentities, hevents⟩ :=
      @DesktopRelayRuntimeExecutor.send_identities orchestrator.inner.executor worker
    refine ⟨hidentities ▸ hrefl, fun event h => ?_⟩
    rcases h with h | h
    · exact (hevents event h).imp .inl id
    · exact .inl (.inr h)
  | cancel worker =>
    have hidentities :=
      @DesktopRelayRuntimeExecutor.cancel_identities orchestrator.inner.executor worker
    refine ⟨hidentities ▸ hrefl, fun event h => .inl ?_⟩
    unfold Pending at h ⊢
    simpa [onExecutor] using h

/-- A run with one more action is one more step. -/
theorem run_append (actions : List RelayAction) (action : RelayAction) :
    run (actions ++ [action]) = (run actions).step action := by
  unfold run
  rw [List.foldl_append]
  rfl

/-- A pending event is from a worker, in every run. -/
theorem produced_run (actions : List RelayAction) :
    ∀ event, Pending (run actions) event → Produced (run actions) event := by
  induction actions using List.reverseRecOn with
  | nil =>
    intro event h
    rcases h with h | h | h
    · cases h
    · cases h
    · cases h
  | append_singleton actions action ih =>
    rw [run_append]
    obtain ⟨hidentities, hpending⟩ := @step_pending (run actions) action
    intro event h
    rcases hpending event h with hbefore | hproduced
    · exact hidentities (ih event hbefore)
    · exact hidentities hproduced

/-! ## What the pump has accepted -/

/-- An event that is to be applied was to be applied before, or it has been accepted just now. -/
theorem step_accepted {action : RelayAction}
    (h : (orchestrator.step action).pump = .accepted event) :
    orchestrator.pump = .accepted event ∧ (∀ spawned, action ≠ .apply spawned) ∨
      action = .accept ∧ orchestrator.pump = .received event ∧ Owned orchestrator event := by
  unfold step at h
  -- Only `accept` brings an accepted event, and only for its owner; `apply` takes it away.
  cases action with
  | accept =>
    dsimp only at h
    by_cases hpump : ∃ event, orchestrator.pump = .received event
    · obtain ⟨first, hpump⟩ := hpump
      rw [accept_eq hpump] at h
      dsimp only at h
      split_ifs at h with howned
      cases h
      exact .inr ⟨rfl, hpump, howned⟩
    · unfold accept at h
      split at h
      · next event hevent => exact absurd ⟨event, hevent⟩ hpump
      · exact .inl ⟨h, fun spawned heq => by cases heq⟩
  | apply spawned =>
    dsimp only [apply] at h
    split at h
    · cases h
    · next hpump => exact absurd h (hpump event)
  | receive =>
    dsimp only [receive] at h
    split at h
    · cases h
    · exact .inl ⟨h, fun spawned heq => by cases heq⟩
  | endPump =>
    dsimp only at h
    split_ifs at h
    exact .inl ⟨h, fun spawned heq => by cases heq⟩
  | shutdownTasks =>
    dsimp only at h
    split_ifs at h
    · exact .inl ⟨h, fun spawned heq => by cases heq⟩
    · exact .inl ⟨h, fun spawned heq => by cases heq⟩
  | clearAccounts =>
    dsimp only at h
    split_ifs at h
    · exact .inl ⟨h, fun spawned heq => by cases heq⟩
    · exact .inl ⟨h, fun spawned heq => by cases heq⟩
  | _ => exact .inl ⟨h, fun spawned heq => by cases heq⟩

/-- When an event is accepted, its account keeps its lifecycle, and its entry as well, unless the
event is terminal. -/
theorem accept_account (hpump : orchestrator.pump = .received event)
    (howned : Owned orchestrator event) :
    orchestrator.accept.inner.account event.accountId.value =
      (orchestrator.inner.accounts[event.accountId.value]?,
        if event.isTerminal then none
        else orchestrator.inner.executor.tasks[event.accountId.value]?) := by
  rw [accept_eq hpump]
  unfold Inner.account onExecutor
  dsimp only
  simp only [howned, and_true]
  split_ifs
  · rw [DesktopRelayRuntimeExecutor.stop_tasks_self]
  · rfl

/-- While an event is to be applied, its account changes only if it is started or stopped. -/
theorem step_account_of_accepted {action : RelayAction}
    (hpump : orchestrator.pump = .accepted event) (happly : ∀ spawned, action ≠ .apply spawned)
    (hkept : ¬action.Disturbs event.accountId.value) :
    (orchestrator.step action).inner.account event.accountId.value =
      orchestrator.inner.account event.accountId.value := by
  refine step_account fun hchanges => ?_
  cases hchanges with
  | start accountId spawned h => exact hkept h
  | stop accountId h => exact hkept h
  | accept other hother => rw [hpump] at hother; cases hother
  | apply other spawned => exact happly spawned rfl
  | shutdownTasks hended => rw [hpump] at hended; cases hended
  | clearAccounts hended => rw [hpump] at hended; cases hended

/-- An event that is to be applied has been accepted, in every run. -/
theorem accepted_run (actions : List RelayAction) :
    ∀ event, (run actions).pump = .accepted event →
      ∃ before between, actions = before ++ .accept :: between ∧ Accepted event before between := by
  induction actions using List.reverseRecOn with
  | nil =>
    intro event h
    cases h
  | append_singleton actions action ih =>
    intro event h
    rw [run_append] at h
    rcases step_accepted h with ⟨hbefore, happly⟩ | ⟨rfl, hreceived, howned⟩
    · obtain ⟨before, between, rfl, haccepted⟩ := ih event hbefore
      refine ⟨before, between ++ [action], by simp, haccepted.received, haccepted.owned, ?_⟩
      intro hundisturbed
      have hlast : ¬action.Disturbs event.accountId.value := hundisturbed action (by simp)
      have hkept := haccepted.kept fun other hother => hundisturbed other (by simp [hother])
      rw [show before ++ RelayAction.accept :: (between ++ [action]) =
        (before ++ .accept :: between) ++ [action] by simp, run_append,
        step_account_of_accepted hbefore happly hlast, hkept]
    · refine ⟨actions, [], rfl, hreceived, howned, fun _ => ?_⟩
      rw [run_append]
      exact accept_account hreceived howned

end DesktopRelayOrchestrator

/-- An event reaches the lifecycle of its account only after the pump has found, in one step, that
its generation is owned; what has changed since then is what a call for the account has changed. -/
theorem event_laws (actions : List RelayAction) : EventLaws actions where
  accepted := accepted_run actions
  dropped event hpump howned := by
    show (run actions).accept = _
    rw [accept_eq hpump, if_neg howned]
    simp only [howned, and_false, if_false]
    rfl
  changes action name h := by
    by_contra hchanges
    exact h (step_account hchanges)
  lifecycle := by
    show (run actions).accept.inner.accounts = _
    unfold accept
    split <;> rfl
  produced event hpending := by
    obtain ⟨worker, hworker, hidentity⟩ := List.mem_map.mp (produced_run actions event hpending)
    exact ⟨worker, hworker, by simpa using hidentity⟩

namespace Sample

/-- The account of the examples is valid. -/
theorem account_valid : validAccountId "primary" = true := by decide

/-- The account of the examples. -/
def account : RelayAccountId := ⟨"primary", account_valid⟩

/-- The account is started, its worker reports a connection, and the pump accepts the event. -/
def reported : List RelayAction :=
  [.start account true, .reportConnected 0, .send 0, .receive, .accept]

/-- Before the event is applied, the account is stopped, and started once more. -/
def replaced : List RelayAction :=
  reported ++ [.stop account, .cancel 0, .taskReturned 0 .cancelled, .start account true]

/-- The connection of the account has failed, and the pump accepts the event. -/
def failed : List RelayAction :=
  [.start account true, .taskReturned 0 .relayUnavailable, .send 0, .receive, .accept]

/-- The first worker reports its connection. -/
def connected : DesktopRelayRuntimeEvent := ⟨account, 1, .connected⟩

/-- The first worker reports that it could not connect. -/
def connectionFailed : DesktopRelayRuntimeEvent :=
  ⟨account, 1, .connectionFailed .relayUnavailable⟩

end Sample

/-- An event of a generation that has been replaced makes the lifecycle connected, although the
worker of the account has not connected; and an event is applied, and schedules a retry, when its
own acceptance has given up the generation. -/
theorem event_of_no_owner :
    ((run Sample.replaced).pump = .accepted Sample.connected ∧
      ¬Owned (run Sample.replaced) Sample.connected ∧
      ((run Sample.replaced).inner.status Sample.account).phase = .connecting ∧
      (((run Sample.replaced).step (.apply true)).inner.status Sample.account).phase = .connected) ∧
    ((run Sample.failed).pump = .accepted Sample.connectionFailed ∧
      ¬Owned (run Sample.failed) Sample.connectionFailed ∧
      ((run Sample.failed).inner.status Sample.account).phase = .connecting ∧
      (((run Sample.failed).step (.apply true)).inner.status Sample.account).phase =
        .retryWaiting) := by
  decide

end Mio.Desktop.RelayRuntime
