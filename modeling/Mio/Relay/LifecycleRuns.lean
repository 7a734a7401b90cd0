import Mio.Relay.Lifecycle

/-!
# The retries of a relay account

The operations of `RelayLifecycle` in any order. What is recorded is every operation with its
answer, the newest first. The delays that were scheduled since the account was last started or
connected are the first ones of the retry table (`scheduled_prefix`), so that the retries end. Past
a stop, only a start leads back to a connection (`rests_run`).
-/

namespace Mio.Relay

/-- The operations that change a lifecycle. -/
inductive RelayLifecycleEvent where
  | start
  | connected
  | connectionFailed (errorCode : RelayConnectionErrorCode)
  | unexpectedDisconnect (errorCode : RelayConnectionErrorCode)
  | retryElapsed
  | stop
  | stopped
  | runtimeFailed
  deriving DecidableEq

namespace RelayLifecycle

/-- The answer of an event. -/
abbrev Answer := Except RelayLifecycleTransitionError RelayLifecycleAction

/-- The answer of an operation that asks for no action. -/
def withoutAction : Except RelayLifecycleTransitionError Unit × RelayLifecycle →
    Answer × RelayLifecycle
  | (answer, lifecycle) => (answer.map fun () => .none, lifecycle)

/-- An operation on a lifecycle, with its answer and the lifecycle that it leaves. -/
def apply (lifecycle : RelayLifecycle) : RelayLifecycleEvent → Answer × RelayLifecycle
  | .start => lifecycle.start
  | .connected => withoutAction lifecycle.connected
  | .connectionFailed errorCode => lifecycle.connectionFailed errorCode
  | .unexpectedDisconnect errorCode => lifecycle.unexpectedDisconnect errorCode
  | .retryElapsed => lifecycle.retryElapsed
  | .stop => (.ok lifecycle.stop.1, lifecycle.stop.2)
  | .stopped => withoutAction lifecycle.stopped
  | .runtimeFailed => (.ok .none, lifecycle.runtimeFailed)

/-- A lifecycle with what was done to it, the newest first. -/
structure Recorded where
  history : List (RelayLifecycleEvent × Answer)
  lifecycle : RelayLifecycle

/-- One event, recorded with its answer. -/
def Recorded.step (recorded : Recorded) (event : RelayLifecycleEvent) : Recorded where
  history := (event, (recorded.lifecycle.apply event).1) :: recorded.history
  lifecycle := (recorded.lifecycle.apply event).2

/-- A run of events. -/
def Recorded.run (recorded : Recorded) (events : List RelayLifecycleEvent) : Recorded :=
  events.foldl Recorded.step recorded

/-- A run from a new lifecycle. -/
def runNew (events : List RelayLifecycleEvent) : Recorded := Recorded.run ⟨[], new⟩ events

/-- A start or a connection that is not rejected. -/
def resets : RelayLifecycleEvent × Answer → Bool
  | (.start, .ok _) | (.connected, .ok _) => true
  | _ => false

/-- The delay that an answer schedules. -/
def delayOf : RelayLifecycleEvent × Answer → List UInt64
  | (_, .ok (.scheduleRetry delayMs)) => [delayMs]
  | _ => []

/-- The delays that were scheduled since the last start or connection, in their order. -/
def scheduled : List (RelayLifecycleEvent × Answer) → List UInt64
  | [] => []
  | entry :: earlier => if resets entry then [] else scheduled earlier ++ delayOf entry

/-- A connection is open, or will be. -/
def isActive (lifecycle : RelayLifecycle) : Prop :=
  lifecycle.status.phase = .connecting ∨ lifecycle.status.phase = .connected ∨
    lifecycle.status.phase = .retryWaiting

/-! ## What a step keeps -/

/-- The invariant of a run. -/
structure Invariant (recorded : Recorded) : Prop where
  /-- The delays are the first ones of the table. -/
  ordered : scheduled recorded.history <+: relayRetryDelaysMs
  /-- The counter says how many there are, as long as more can follow. -/
  counted : recorded.lifecycle.isActive → scheduled recorded.history =
    relayRetryDelaysMs.take recorded.lifecycle.status.retryAttempt.toNat
  within : recorded.lifecycle.status.retryAttempt.toNat ≤ relayRetryDelaysMs.length
  waiting : recorded.lifecycle.status.nextRetryDelayMs.isSome = true ↔
    recorded.lifecycle.status.phase = .retryWaiting

/-- An answer without a delay, after which there is no connection, or the same delays are still
counted. -/
theorem Invariant.quiet {recorded : Recorded} (h : Invariant recorded) {event : RelayLifecycleEvent}
    {answer : Answer} {lifecycle : RelayLifecycle} (hresets : resets (event, answer) = false)
    (hdelay : delayOf (event, answer) = [])
    (hactive : lifecycle.isActive → recorded.lifecycle.isActive ∧
      lifecycle.status.retryAttempt = recorded.lifecycle.status.retryAttempt)
    (hwithin : lifecycle.status.retryAttempt.toNat ≤ relayRetryDelaysMs.length)
    (hwaiting : lifecycle.status.nextRetryDelayMs.isSome = true ↔
      lifecycle.status.phase = .retryWaiting) :
    Invariant ⟨(event, answer) :: recorded.history, lifecycle⟩ := by
  have hsame : scheduled ((event, answer) :: recorded.history) = scheduled recorded.history := by
    rw [scheduled, hresets, hdelay, if_neg (by decide), List.append_nil]
  refine ⟨hsame ▸ h.ordered, fun hnext => ?_, hwithin, hwaiting⟩
  obtain ⟨hbefore, hattempt⟩ := hactive hnext
  show scheduled ((event, answer) :: recorded.history) = _
  rw [hsame, h.counted hbefore, hattempt]

/-- A start or a connection begins the table again. -/
theorem invariant_reset {event : RelayLifecycleEvent} {answer : Answer}
    {history : List (RelayLifecycleEvent × Answer)} {phase : RelayRuntimePhase}
    (hresets : resets (event, answer) = true) (hphase : phase ≠ .retryWaiting) :
    Invariant ⟨(event, answer) :: history, ⟨⟨phase, 0, none, none⟩⟩⟩ := by
  have hnone : scheduled ((event, answer) :: history) = [] := by rw [scheduled, hresets, if_pos rfl]
  refine ⟨hnone ▸ List.nil_prefix, fun _ => hnone, Nat.zero_le _, ?_⟩
  exact iff_of_false (by simp) hphase

/-- A loss of the connection schedules the next delay of the table, or none. -/
theorem Invariant.loss {recorded : Recorded} (h : Invariant recorded) {event : RelayLifecycleEvent}
    (hevent : ∀ answer, resets (event, answer) = false) (hactive : recorded.lifecycle.isActive)
    (errorCode : RelayConnectionErrorCode) :
    Invariant
      ⟨(event, .ok (recorded.lifecycle.afterConnectionLoss errorCode).1) :: recorded.history,
        (recorded.lifecycle.afterConnectionLoss errorCode).2⟩ := by
  obtain ⟨history, ⟨⟨phase, attempt, next, lastError⟩⟩⟩ := recorded
  have hcounted := h.counted hactive
  have hwithin := h.within
  dsimp only at hcounted hwithin
  unfold afterConnectionLoss
  dsimp only
  split
  · -- The delay is the one at the counter, so with it the counter is right again.
    rename_i delayMs _ hdelay
    have hlt : attempt.toNat < relayRetryDelaysMs.length := by
      obtain ⟨hlt, -⟩ := List.getElem?_eq_some_iff.mp hdelay
      exact hlt
    have hfive : relayRetryDelaysMs.length = 5 := rfl
    have hnext : (attempt + 1).toNat = attempt.toNat + 1 := by
      rw [UInt8.toNat_add, UInt8.toNat_one, Nat.mod_eq_of_lt (by omega)]
    have hscheduled : scheduled ((event, .ok (.scheduleRetry delayMs)) :: history) =
        relayRetryDelaysMs.take (attempt + 1).toNat := by
      rw [scheduled, hevent, if_neg (by decide), hcounted, hnext, List.take_add_one, hdelay]
      rfl
    refine ⟨hscheduled ▸ List.take_prefix _ _, fun _ => hscheduled, ?_, iff_of_true rfl rfl⟩
    show (attempt + 1).toNat ≤ _
    omega
  -- No delay is left, so the connection has failed.
  · refine h.quiet (hevent _) rfl (fun hnext => ?_) hwithin (iff_of_false (by simp) (by simp))
    rcases hnext with hnext | hnext | hnext <;> cases hnext

/-- A rejected event keeps the invariant. -/
theorem Invariant.rejected {recorded : Recorded} (h : Invariant recorded)
    (event : RelayLifecycleEvent) (error : RelayLifecycleTransitionError) :
    Invariant ⟨(event, .error error) :: recorded.history, recorded.lifecycle⟩ :=
  h.quiet (by cases event <;> rfl) rfl (fun hactive => ⟨hactive, rfl⟩) h.within h.waiting

/-- Every operation keeps the invariant. -/
theorem Invariant.step {recorded : Recorded} (h : Invariant recorded)
    (event : RelayLifecycleEvent) :
    Invariant (recorded.step event) := by
  have hoffline : ¬new.isActive := by
    rintro (hphase | hphase | hphase) <;> cases hphase
  -- Where the lifecycle is offline again, there is nothing to count.
  have hnew : ∀ answer : Answer, ∀ event, resets (event, answer) = false →
      delayOf (event, answer) = [] →
      Invariant ⟨(event, answer) :: recorded.history, new⟩ := by
    intro answer event hresets hdelay
    exact h.quiet hresets hdelay (fun hactive => absurd hactive hoffline) (by decide) (by decide)
  cases event with
  | start =>
    rw [Recorded.step, apply, start]
    -- A start begins a new count, or it is rejected.
    cases recorded.lifecycle.status.phase <;>
      first
        | exact invariant_reset rfl (by decide)
        | exact h.rejected _ _
  | connected =>
    rw [Recorded.step, apply, connected]
    split
    · exact h.rejected _ _
    · exact invariant_reset rfl (by decide)
  | connectionFailed errorCode =>
    rw [Recorded.step, apply, connectionFailed]
    split
    · exact h.rejected _ _
    · rename_i hphase
      -- A loss is counted, and the delay that it takes is the next one.
      exact h.loss (fun _ => rfl) (.inl (not_not.mp hphase)) errorCode
  | unexpectedDisconnect errorCode =>
    rw [Recorded.step, apply, unexpectedDisconnect]
    split
    · exact h.rejected _ _
    · rename_i hphase
      exact h.loss (fun _ => rfl) (.inr (.inl (not_not.mp hphase))) errorCode
  | retryElapsed =>
    rw [Recorded.step, apply, retryElapsed]
    split
    · exact h.rejected _ _
    · rename_i hphase
      have hconnecting : RelayRuntimePhase.connecting ≠ .retryWaiting := by decide
      exact h.quiet rfl rfl (fun _ => ⟨.inr (.inr (not_not.mp hphase)), rfl⟩) h.within
        (iff_of_false Bool.false_ne_true hconnecting)
  | stop =>
    rw [Recorded.step, apply, stop]
    -- A stop goes to offline where nothing runs, and waits for the end of what does.
    cases hphase : recorded.lifecycle.status.phase
    case offline | retryWaiting | error => exact hnew _ _ rfl rfl
    case connecting | connected =>
      refine h.quiet rfl rfl (fun hactive => ?_) h.within (iff_of_false (by simp) (by simp))
      rcases hactive with hactive | hactive | hactive <;> cases hactive
    case stopping =>
      refine h.quiet rfl rfl (fun hactive => ⟨hactive, rfl⟩) h.within h.waiting
  | stopped =>
    rw [Recorded.step, apply, stopped]
    split
    · exact h.rejected _ _
    · exact hnew _ _ rfl rfl
  | runtimeFailed =>
    rw [Recorded.step, apply, runtimeFailed]
    refine h.quiet rfl rfl (fun hactive => ?_) h.within (iff_of_false (by simp) (by simp))
    rcases hactive with hactive | hactive | hactive <;> cases hactive

/-- The invariant holds along a run, by induction on its events. -/
theorem Invariant.run {recorded : Recorded} (h : Invariant recorded)
    (events : List RelayLifecycleEvent) : Invariant (recorded.run events) := by
  induction events generalizing recorded with
  | nil => exact h
  | cons event rest ih => exact ih (h.step event)

/-- The invariant holds along every run from the start. -/
theorem invariant_runNew (events : List RelayLifecycleEvent) : Invariant (runNew events) := by
  have hnew : Invariant ⟨[], new⟩ := by
    refine ⟨List.nil_prefix, fun hactive => ?_, by decide, by decide⟩
    rcases hactive with hactive | hactive | hactive <;> cases hactive
  exact hnew.run events

/-! ## Past a stop -/

/-- Without a start, a lifecycle that rests goes on to do so. -/
theorem rests_apply {lifecycle : RelayLifecycle} (h : ¬lifecycle.isActive)
    {event : RelayLifecycleEvent} (hevent : event ≠ .start) :
    ¬(lifecycle.apply event).2.isActive := by
  simp only [isActive, not_or] at h
  obtain ⟨hconnecting, hconnected, hwaiting⟩ := h
  -- No event but a start leads to an active phase.
  have hrest : ∀ next : RelayLifecycle, next.status.phase = .offline ∨
      next.status.phase = .error ∨ next.status.phase = lifecycle.status.phase →
        ¬next.isActive := by
    intro next hphase
    simp only [isActive]
    rcases hphase with hphase | hphase | hphase <;> simp [hphase, hconnecting, hconnected, hwaiting]
  refine hrest _ ?_
  cases event with
  | start => exact absurd rfl hevent
  | connected => simp [apply, withoutAction, connected, hconnecting]
  | connectionFailed errorCode => simp [apply, connectionFailed, hconnecting]
  | unexpectedDisconnect errorCode => simp [apply, unexpectedDisconnect, hconnected]
  | retryElapsed => simp [apply, retryElapsed, hwaiting]
  | stop =>
    rw [apply, stop]
    cases hphase : lifecycle.status.phase
    case offline | retryWaiting | error => exact .inl rfl
    case connecting => exact absurd hphase hconnecting
    case connected => exact absurd hphase hconnected
    case stopping => exact .inr (.inr hphase)
  | stopped =>
    rw [apply, stopped]
    split
    · exact .inr (.inr rfl)
    · exact .inl rfl
  | runtimeFailed => exact .inr (.inl rfl)

/-- A connection at rest stays so until it is started. -/
theorem rests_run {recorded : Recorded} (h : ¬recorded.lifecycle.isActive)
    {events : List RelayLifecycleEvent} (hevents : .start ∉ events) :
    ¬(recorded.run events).lifecycle.isActive := by
  induction events generalizing recorded with
  | nil => exact h
  | cons event rest ih =>
    rw [List.mem_cons, not_or] at hevents
    exact ih (rests_apply h (Ne.symm hevents.1)) hevents.2

/-- A stop leaves a lifecycle that rests. -/
theorem rests_stop (lifecycle : RelayLifecycle) : ¬(lifecycle.apply .stop).2.isActive := by
  rw [apply, stop]
  cases hphase : lifecycle.status.phase
  case stopping =>
    rintro (h | h | h) <;> cases hphase.symm.trans h
  all_goals rintro (h | h | h) <;> cases h

/-- An operation that is rejected leaves the lifecycle as it is. -/
theorem apply_rejected {lifecycle : RelayLifecycle} {event : RelayLifecycleEvent}
    {error : RelayLifecycleTransitionError} (h : (lifecycle.apply event).1 = .error error) :
    (lifecycle.apply event).2 = lifecycle := by
  -- Each transition that is refused answers with the lifecycle as it was.
  cases event with
  | start =>
    rw [apply, start] at h ⊢
    cases hphase : lifecycle.status.phase
    case offline | error =>
      rw [hphase] at h
      cases h
    all_goals rfl
  | connected =>
    rw [apply, connected] at h ⊢
    split_ifs at h ⊢
    · rfl
    · cases h
  | connectionFailed errorCode =>
    rw [apply, connectionFailed] at h ⊢
    split_ifs at h ⊢
    rfl
  | unexpectedDisconnect errorCode =>
    rw [apply, unexpectedDisconnect] at h ⊢
    split_ifs at h ⊢
    rfl
  | retryElapsed =>
    rw [apply, retryElapsed] at h ⊢
    split_ifs at h ⊢
    rfl
  | stopped =>
    rw [apply, stopped] at h ⊢
    split_ifs at h ⊢
    · rfl
    · cases h
  | stop | runtimeFailed => cases h

/-- At every point of a run, the delays scheduled since the last start or connection are the first
ones of the table, so there are at most five, the counter stays within the table, a next delay is
there exactly in the phase that waits for it, a rejected operation changes nothing, and after a stop
only a start leads back to a connection. -/
theorem retries_bounded (events : List RelayLifecycleEvent) :
    scheduled (runNew events).history <+: relayRetryDelaysMs ∧
      (scheduled (runNew events).history).length ≤ 5 ∧
      (runNew events).lifecycle.status.retryAttempt.toNat ≤ relayRetryDelaysMs.length ∧
      ((runNew events).lifecycle.status.nextRetryDelayMs.isSome = true ↔
        (runNew events).lifecycle.status.phase = .retryWaiting) ∧
      (∀ event error, ((runNew events).lifecycle.apply event).1 = .error error →
        ((runNew events).lifecycle.apply event).2 = (runNew events).lifecycle) ∧
      ∀ later, .start ∉ later →
        ¬((runNew events).run (.stop :: later)).lifecycle.isActive := by
  have h := invariant_runNew events
  have hstop : ¬((runNew events).step .stop).lifecycle.isActive := rests_stop _
  exact ⟨h.ordered, h.ordered.length_le, h.within, h.waiting, fun event error => apply_rejected,
    fun later hlater => rests_run hstop hlater⟩

end RelayLifecycle

end Mio.Relay
