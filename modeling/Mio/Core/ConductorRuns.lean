import Mio.Core.Conductor

/-!
# The runs of a conductor operation

`ConductorStep` says what one call can do to an operation, together with what it has checked by
then. `ConductorInvariant` links the stage of an operation to its plan, the outcomes of its
delegations, and its pending answer. It holds initially, every step keeps it, and what is written
once stays (`ConductorStep.keeps`). `conductor_laws` derives the laws of a reachable operation.
-/

namespace Mio.Core.Conductor

open Library

/-! ## What a call can do -/

/-- The states that a plan's delegations start with. -/
structure StartStates (delegations : List ConductorDelegation)
    (states : List ConductorDelegationState) : Prop where
  delegation : states.map (·.delegation) = delegations
  outcome : ∀ state ∈ states, state.outcome = none
  targets : (states.map (·.delegation.targetParticipantId)).Nodup

/-- The states that the loop makes are those that a plan starts with, each with a new target. -/
theorem delegationStates_spec {ids : ConductorOperationIds} {delegations : List ConductorDelegation}
    {ordinal : ℕ} {targets : List String} {states : List ConductorDelegationState}
    (h : delegationStates ids delegations ordinal targets = .ok states) :
    StartStates delegations states ∧
      ∀ state ∈ states, state.delegation.targetParticipantId ∉ targets := by
  -- By induction on the delegations, for any targets that the ones before have taken.
  induction delegations generalizing ordinal targets states with
  | nil =>
    obtain rfl : [] = states := by simpa [delegationStates] using h
    exact ⟨⟨rfl, by simp, by simp⟩, by simp⟩
  | cons delegation rest ih =>
    rw [delegationStates] at h
    split at h
    · cases h
    rename_i hchecked
    split at h
    · cases h
    rename_i delegationIds hids
    cases hrest : delegationStates ids rest (ordinal + 1)
        (delegation.targetParticipantId :: targets) with
    | error e =>
      rw [hrest] at h
      cases h
    | ok states' =>
      rw [hrest] at h
      obtain rfl := Except.ok.inj h
      obtain ⟨hstart, hfresh⟩ := ih hrest
      have hnew : delegation.targetParticipantId ∉ targets := by
        simp only [Bool.or_eq_true, List.contains_iff_mem, not_or] at hchecked
        exact hchecked.2
      -- The rest avoids the target of this delegation, which it was given among the targets.
      have hfresh' : ∀ state ∈ states', state.delegation.targetParticipantId ≠
          delegation.targetParticipantId ∧ state.delegation.targetParticipantId ∉ targets := by
        intro state hstate
        simpa using hfresh state hstate
      refine ⟨⟨by simp [hstart.delegation], ?_, ?_⟩, ?_⟩
      · simpa using hstart.outcome
      · rw [List.map_cons, List.nodup_cons, List.mem_map]
        refine ⟨?_, hstart.targets⟩
        rintro ⟨state, hstate, heq⟩
        exact (hfresh' state hstate).1 heq
      · simpa [hnew] using fun state hstate => (hfresh' state hstate).2

/-- What a call can do to an operation, together with what it has checked by then. -/
inductive ConductorStep (operation : ConductorOperation) : ConductorOperation → Prop
  /-- A call that fails, or that finds its work done, changes nothing. -/
  | unchanged : ConductorStep operation operation
  | beginPlanning (hstage : operation.stage = .prepared) :
    ConductorStep operation { operation with stage := .planning }
  /-- A plan with an answer goes on to the saving of the answer. -/
  | acceptAnswer (plan : ConductorPlanV1) (answer : String) (hstage : operation.stage = .planning)
    (hnew : operation.plan = none) (hmode : plan.mode = .answer)
    (hdelegations : plan.delegations = []) :
    ConductorStep operation { operation with
      pendingFinalAnswer := some answer, stage := .synthesizing, plan := some plan }
  /-- A plan with delegations, at least one, goes on to the workers. -/
  | acceptDelegate (plan : ConductorPlanV1) (states : List ConductorDelegationState)
    (hstage : operation.stage = .planning) (hnew : operation.plan = none)
    (hmode : plan.mode = .delegate) (hsome : plan.delegations ≠ [])
    (hstart : StartStates plan.delegations states) :
    ConductorStep operation { operation with
      delegations := states, stage := .delegating, plan := some plan }
  /-- The outcome of one delegation that has none. With the last one, the synthesis starts. -/
  | recordOutcome (before : List ConductorDelegationState) (state : ConductorDelegationState)
    (after : List ConductorDelegationState) (outcome : WorkerOutcome)
    (stage : ConductorOperationStage) (hstage : operation.stage = .delegating)
    (hsplit : operation.delegations = before ++ state :: after) (hnew : state.outcome = none)
    (hnext : stage = .synthesizing ∧ (∀ other ∈ before ++ after, other.outcome ≠ none) ∨
      stage = .delegating ∧ ∃ other ∈ before ++ after, other.outcome = none) :
    ConductorStep operation { operation with
      delegations := before ++ { state with outcome := some outcome } :: after, stage }
  | recordSynthesis (answer : String) (hstage : operation.stage = .synthesizing)
    (hnew : operation.pendingFinalAnswer = none) :
    ConductorStep operation { operation with pendingFinalAnswer := some answer }
  | finalSaved (hstage : operation.stage = .synthesizing)
    (hpending : operation.pendingFinalAnswer ≠ none) :
    ConductorStep operation { operation with stage := .completed }
  | ended (stage : ConductorOperationStage) (hopen : operation.stage.isTerminal = false)
    (hstage : stage = .failed ∨ stage = .unknown) :
    ConductorStep operation { operation with stage }

/-- What a call returns: an error leaves the operation, and a success is a step. -/
def Returns (operation : ConductorOperation)
    (result : Except ConductorOperationError Unit × ConductorOperation) : Prop :=
  (∃ e, result = (.error e, operation)) ∨
    ∃ operation', result = (.ok (), operation') ∧ ConductorStep operation operation'

/-- A call that fails leaves the operation. -/
theorem Returns.error (operation : ConductorOperation) (e : ConductorOperationError) :
    Returns operation (.error e, operation) := .inl ⟨e, rfl⟩

/-- A call that returns has taken a step. -/
theorem Returns.ok {operation operation' : ConductorOperation}
    (h : ConductorStep operation operation') : Returns operation (.ok (), operation') :=
  .inr ⟨operation', rfl, h⟩

section Calls

variable (operation : ConductorOperation)

/-- How `begin_planning` ends. -/
theorem beginPlanning_returns : Returns operation (beginPlanning operation) := by
  unfold beginPlanning
  split
  · exact .ok (.beginPlanning ‹_›)
  · exact .ok .unchanged
  · exact .error _ _

/-- How `accept_plan` ends. -/
theorem acceptPlan_returns (plan : ConductorPlanV1) :
    Returns operation (acceptPlan plan operation) := by
  unfold acceptPlan
  -- The plan is there already, and then it is the same or another.
  split
  · split
    · exact .ok .unchanged
    · exact .error _ _
  rename_i hnew
  split
  · exact .error _ _
  rename_i hstage
  have hplanning : operation.stage = .planning := by simpa using hstage
  -- From here on, the two modes.
  split
  · rename_i hmode
    split
    · exact .error _ _
    rename_i answer hanswer
    split_ifs with hdelegations
    · exact .error _ _
    · exact .ok (.acceptAnswer plan answer hplanning hnew hmode (by simpa using hdelegations))
  · rename_i hmode
    split
    · exact .error _ _
    rename_i hcount
    split
    · exact .error _ _
    rename_i states hstates
    have hsome : plan.delegations ≠ [] := by
      intro hnil
      simp [hnil] at hcount
    exact .ok (.acceptDelegate plan states hplanning hnew hmode hsome
      (delegationStates_spec hstates).1)

/-- How `record_worker_outcome` ends. -/
theorem recordWorkerOutcome_returns (targetParticipantId : String) (outcome : WorkerOutcome) :
    Returns operation (recordWorkerOutcome targetParticipantId outcome operation) := by
  unfold recordWorkerOutcome
  dsimp only
  split
  · exact .error _ _
  rename_i state hfind
  -- The outcome is there already, and then it is the same or another.
  split
  · split
    · exact .ok .unchanged
    · exact .error _ _
  rename_i hnew
  split_ifs with hchecked hall
  · exact .error _ _
  all_goals
    have hstage : operation.stage = .delegating := by
      simp only [Bool.or_eq_true, bne_iff_ne, not_or, ne_eq, not_not] at hchecked
      exact hchecked.1
    obtain ⟨before, after, hsplit, -, hmodify⟩ := modifyFirst_of_find? hfind
    rw [hmodify] at hall ⊢
  · refine .ok (.recordOutcome before state after outcome .synthesizing hstage hsplit hnew ?_)
    -- Every delegation has an outcome now, so the synthesis begins.
    refine .inl ⟨rfl, fun other hother hnone => ?_⟩
    have hsome := List.all_eq_true.mp hall other (by
      rw [List.mem_append, List.mem_cons]
      rcases List.mem_append.mp hother with h | h
      · exact .inl h
      · exact .inr (.inr h))
    simp [hnone] at hsome
  · refine .ok (.recordOutcome before state after outcome operation.stage hstage hsplit hnew ?_)
    -- Some other delegation is still without one, as the one that was recorded is not.
    refine .inr ⟨hstage, ?_⟩
    by_contra hnone
    refine hall (List.all_eq_true.mpr fun other hother => ?_)
    rw [Option.isSome_iff_ne_none]
    intro hother_none
    rw [List.mem_append, List.mem_cons] at hother
    rcases hother with h | rfl | h
    · exact hnone ⟨other, List.mem_append_left _ h, hother_none⟩
    · cases hother_none
    · exact hnone ⟨other, List.mem_append_right _ h, hother_none⟩

/-- How `record_synthesis` ends. -/
theorem recordSynthesis_returns (answer : String) :
    Returns operation (recordSynthesis answer operation) := by
  unfold recordSynthesis
  split
  · split
    · exact .ok .unchanged
    · exact .error _ _
  rename_i hnew
  split_ifs with hchecked
  · exact .error _ _
  simp only [Bool.or_eq_true, bne_iff_ne, not_or, ne_eq, not_not] at hchecked
  exact .ok (.recordSynthesis answer hchecked.1.1 hnew)

/-- How `mark_final_saved` ends. -/
theorem markFinalSaved_returns : Returns operation (markFinalSaved operation) := by
  unfold markFinalSaved
  split
  · rename_i hstage
    split
    · rename_i hsome
      refine .ok (.finalSaved hstage ?_)
      intro hnone
      simp [hnone] at hsome
    · exact .error _ _
  · exact .ok .unchanged
  · exact .error _ _

/-- How the marks for an end without an answer end. -/
theorem markEnded_returns {stage : ConductorOperationStage}
    (hstage : stage = .failed ∨ stage = .unknown) :
    Returns operation (markEnded stage operation) := by
  unfold markEnded
  split_ifs with hterminal
  · exact .ok .unchanged
  · exact .error _ _
  · exact .ok (.ended stage (by simpa using hterminal) hstage)

/-- Every call returns an error or is a step. -/
theorem ConductorCall.apply_returns (call : ConductorCall) :
    Returns operation (call.apply operation) := by
  cases call with
  | beginPlanning => exact beginPlanning_returns operation
  | acceptPlan plan => exact acceptPlan_returns operation plan
  | recordWorkerOutcome target outcome => exact recordWorkerOutcome_returns operation target outcome
  | recordSynthesis answer => exact recordSynthesis_returns operation answer
  | markFinalSaved => exact markFinalSaved_returns operation
  | markFailed => exact markEnded_returns operation (.inl rfl)
  | markExternalUnknown => exact markEnded_returns operation (.inr rfl)

/-- Every call leaves the operation or is a step. -/
theorem ConductorCall.apply_step (call : ConductorCall) :
    ConductorStep operation (call.apply operation).2 := by
  rcases call.apply_returns operation with ⟨e, h⟩ | ⟨operation', h, hstep⟩
  · rw [h]
    exact .unchanged
  · rw [h]
    exact hstep

end Calls

/-! ## The invariant -/

/-- What links an operation's stage to its plan, its outcomes, and its pending answer. -/
structure ConductorInvariant (operation : ConductorOperation) : Prop where
  /-- Without a plan, nothing is delegated and nothing answered. -/
  unplanned : operation.plan = none →
    operation.delegations = [] ∧ operation.pendingFinalAnswer = none
  /-- The delegations are the plan's. -/
  planned : ∀ plan, operation.plan = some plan →
    operation.delegations.map (·.delegation) = plan.delegations
  /-- No participant has two delegations. -/
  targets : (operation.delegations.map (·.delegation.targetParticipantId)).Nodup
  /-- Before the delegations there is no plan. -/
  planning : operation.stage = .prepared ∨ operation.stage = .planning → operation.plan = none
  /-- While the workers are out, the plan delegates and an outcome is missing. -/
  delegating : operation.stage = .delegating →
    (∃ plan, operation.plan = some plan ∧ plan.mode = .delegate) ∧
      operation.pendingFinalAnswer = none ∧ ∃ state ∈ operation.delegations, state.outcome = none
  /-- In the synthesis, an answer is pending or the plan delegates, and no outcome is missing. -/
  synthesizing : operation.stage = .synthesizing →
    (∃ plan, operation.plan = some plan ∧
      (plan.mode = .answer → operation.pendingFinalAnswer ≠ none)) ∧
      ∀ state ∈ operation.delegations, state.outcome ≠ none
  /-- An operation completes with an answer. -/
  completed : operation.stage = .completed → operation.pendingFinalAnswer ≠ none

/-- A new operation satisfies the invariant. -/
theorem tryNew_invariant {sourceMessageId conductorId : String} {operation : ConductorOperation}
    (h : ConductorOperation.tryNew sourceMessageId conductorId = .ok operation) :
    ConductorInvariant operation := by
  unfold ConductorOperation.tryNew at h
  split at h
  · cases h
  · obtain rfl := Except.ok.inj h
    constructor <;> simp

/-- Every step keeps the invariant. -/
theorem ConductorStep.invariant {operation operation' : ConductorOperation}
    (hstep : ConductorStep operation operation') (hinv : ConductorInvariant operation) :
    ConductorInvariant operation' := by
  cases hstep with
  | unchanged => exact hinv
  | beginPlanning hstage =>
    exact { hinv with planning := fun _ => hinv.planning (.inl hstage), delegating := nofun
                      synthesizing := nofun, completed := nofun }
  | acceptAnswer plan answer hstage hnew hmode hdelegations =>
    have hnone := (hinv.unplanned hnew).1
    refine ⟨nofun, ?_, hinv.targets, by simp, nofun, ?_, nofun⟩
    · rintro _ ⟨rfl⟩
      simp [hnone, hdelegations]
    · simp [hnone]
  | acceptDelegate plan states hstage hnew hmode hsome hstart =>
    refine ⟨nofun, ?_, hstart.targets, by simp, ?_, nofun, nofun⟩
    · rintro _ ⟨rfl⟩
      exact hstart.delegation
    · intro _
      refine ⟨⟨plan, rfl, hmode⟩, (hinv.unplanned hnew).2, ?_⟩
      -- The plan delegates to someone, so there is a state, and it starts without an outcome.
      obtain ⟨state, hstate⟩ : ∃ state, state ∈ states := by
        refine List.exists_mem_of_ne_nil states fun hnil => hsome ?_
        rw [← hstart.delegation, hnil, List.map_nil]
      exact ⟨state, hstate, hstart.outcome state hstate⟩
  | recordOutcome before state after outcome stage hstage hsplit hnew hnext =>
    obtain ⟨⟨plan, hplan, hmode⟩, hpending, -⟩ := hinv.delegating hstage
    have hplanned := hinv.planned
    have htargets := hinv.targets
    rw [hsplit] at hplanned htargets
    refine ⟨fun h => ?_, ?_, ?_, ?_, ?_, ?_, ?_⟩
    · simp [hplan] at h
    · simpa using hplanned
    · simpa using htargets
    · rcases hnext with ⟨rfl, -⟩ | ⟨rfl, -⟩ <;> simp
    · rintro rfl
      rcases hnext with ⟨h, -⟩ | ⟨-, other, hother, hnone⟩
      · cases h
      refine ⟨⟨plan, hplan, hmode⟩, hpending, other, ?_, hnone⟩
      show other ∈ before ++ { state with outcome := some outcome } :: after
      rw [List.mem_append, List.mem_cons]
      rcases List.mem_append.mp hother with h | h
      · exact .inl h
      · exact .inr (.inr h)
    · rintro rfl
      rcases hnext with ⟨-, hall⟩ | ⟨h, -⟩
      · refine ⟨⟨plan, hplan, fun h => by simp [h] at hmode⟩, fun other hother => ?_⟩
        rw [List.mem_append, List.mem_cons] at hother
        rcases hother with h | rfl | h
        · exact hall other (List.mem_append_left _ h)
        · simp
        · exact hall other (List.mem_append_right _ h)
      · cases h
    · rcases hnext with ⟨rfl, -⟩ | ⟨rfl, -⟩ <;> simp
  | recordSynthesis answer hstage hnew =>
    obtain ⟨⟨plan, hplan, -⟩, hall⟩ := hinv.synthesizing hstage
    refine { hinv with unplanned := ?_, delegating := ?_, synthesizing := ?_, completed := ?_ }
    · simp [hplan]
    · simp [hstage]
    · exact fun _ => ⟨⟨plan, hplan, by simp⟩, hall⟩
    · simp
  | finalSaved hstage hpending =>
    exact { hinv with planning := by simp, delegating := nofun, synthesizing := nofun
                      completed := fun _ => hpending }
  | ended stage hopen hstage =>
    rcases hstage with rfl | rfl <;>
      exact { hinv with planning := by simp, delegating := nofun, synthesizing := nofun
                        completed := nofun }

/-- What is written once, and so stays: the plan, each recorded outcome, and the answer. -/
structure Keeps (operation operation' : ConductorOperation) : Prop where
  plan : ∀ plan, operation.plan = some plan → operation'.plan = some plan
  outcome : ∀ state ∈ operation.delegations, state.outcome ≠ none → state ∈ operation'.delegations
  answer : ∀ answer, operation.pendingFinalAnswer = some answer →
    operation'.pendingFinalAnswer = some answer
  terminal : operation.stage.isTerminal = true → operation' = operation

/-- An operation keeps what it has. -/
theorem Keeps.refl (operation : ConductorOperation) : Keeps operation operation :=
  ⟨fun _ h => h, fun _ h _ => h, fun _ h => h, fun _ => rfl⟩

/-- What is kept twice is kept. -/
theorem Keeps.trans {first middle last : ConductorOperation} (h₁ : Keeps first middle)
    (h₂ : Keeps middle last) : Keeps first last := by
  refine ⟨fun p hp => h₂.plan p (h₁.plan p hp), fun state hstate hsome => ?_,
    fun a ha => h₂.answer a (h₁.answer a ha), fun hterminal => ?_⟩
  · exact h₂.outcome state (h₁.outcome state hstate hsome) hsome
  · have hmiddle := h₁.terminal hterminal
    rw [h₂.terminal (hmiddle ▸ hterminal), hmiddle]

/-- Every step keeps what is written once. -/
theorem ConductorStep.keeps {operation operation' : ConductorOperation}
    (hstep : ConductorStep operation operation') (hinv : ConductorInvariant operation) :
    Keeps operation operation' := by
  cases hstep with
  | unchanged => exact .refl _
  | beginPlanning hstage =>
    exact ⟨fun _ h => h, fun _ h _ => h, fun _ h => h,
      by simp [hstage, ConductorOperationStage.isTerminal]⟩
  | acceptAnswer plan answer hstage hnew =>
    obtain ⟨hnone, hpending⟩ := hinv.unplanned hnew
    exact ⟨by simp [hnew], fun _ h _ => h, by simp [hpending],
      by simp [hstage, ConductorOperationStage.isTerminal]⟩
  | acceptDelegate plan states hstage hnew =>
    obtain ⟨hnone, -⟩ := hinv.unplanned hnew
    exact ⟨by simp [hnew], by simp [hnone], fun _ h => h,
      by simp [hstage, ConductorOperationStage.isTerminal]⟩
  | recordOutcome before state after outcome stage hstage hsplit hnew =>
    refine ⟨fun _ h => h, fun other hother hsome => ?_, fun _ h => h,
      by simp [hstage, ConductorOperationStage.isTerminal]⟩
    -- The only state that is changed had no outcome.
    have hne : other ≠ state := fun h => hsome (h ▸ hnew)
    rw [hsplit, List.mem_append, List.mem_cons] at hother
    show other ∈ before ++ { state with outcome := some outcome } :: after
    rw [List.mem_append, List.mem_cons]
    tauto
  | recordSynthesis answer hstage hnew =>
    exact ⟨fun _ h => h, fun _ h _ => h, by simp [hnew],
      by simp [hstage, ConductorOperationStage.isTerminal]⟩
  | finalSaved hstage =>
    exact ⟨fun _ h => h, fun _ h _ => h, fun _ h => h,
      by simp [hstage, ConductorOperationStage.isTerminal]⟩
  | ended stage hopen =>
    exact ⟨fun _ h => h, fun _ h _ => h, fun _ h => h, by simp [hopen]⟩

/-- A run keeps the invariant and what is written once. -/
theorem ConductorCall.run_spec {operation : ConductorOperation}
    (hinv : ConductorInvariant operation) (calls : List ConductorCall) :
    ConductorInvariant (run calls operation) ∧ Keeps operation (run calls operation) := by
  induction calls generalizing operation with
  | nil => exact ⟨hinv, .refl _⟩
  | cons call calls ih =>
    have hstep := call.apply_step operation
    obtain ⟨hrun, hkeeps⟩ := ih (hstep.invariant hinv)
    exact ⟨hrun, (hstep.keeps hinv).trans hkeeps⟩

/-! ## The laws -/

/-- The laws of an operation. The calls that follow are arbitrary. -/
structure ConductorLaws (operation : ConductorOperation) : Prop where
  /-- A call that returns an error leaves the operation unchanged. -/
  error_unchanged : ∀ (call : ConductorCall) (e : ConductorOperationError)
    (operation' : ConductorOperation),
    call.apply operation = (.error e, operation') → operation' = operation
  /-- `completed`, `failed`, and `unknown` are absorbing. -/
  absorbing : operation.stage.isTerminal = true →
    ∀ calls, ConductorCall.run calls operation = operation
  /-- The plan is written once. -/
  plan_once : ∀ plan, operation.plan = some plan →
    (∀ calls, (ConductorCall.run calls operation).plan = some plan) ∧
      acceptPlan plan operation = (.ok (), operation) ∧
      ∀ other, other ≠ plan → acceptPlan other operation = (.error .conflictingReplay, operation)
  /-- Each outcome is written once. -/
  outcome_once : ∀ state ∈ operation.delegations, ∀ outcome, state.outcome = some outcome →
    (∀ calls, state ∈ (ConductorCall.run calls operation).delegations) ∧
      recordWorkerOutcome state.delegation.targetParticipantId outcome operation =
        (.ok (), operation) ∧
      ∀ other, other ≠ outcome →
        recordWorkerOutcome state.delegation.targetParticipantId other operation =
          (.error .conflictingReplay, operation)
  /-- The final answer is written once. -/
  answer_once : ∀ answer, operation.pendingFinalAnswer = some answer →
    (∀ calls, (ConductorCall.run calls operation).pendingFinalAnswer = some answer) ∧
      recordSynthesis answer operation = (.ok (), operation) ∧
      ∀ other, other ≠ answer →
        recordSynthesis other operation = (.error .conflictingReplay, operation)
  /-- In the synthesis of a plan that delegates, every delegation of the plan has an outcome. -/
  synthesizing : operation.stage = .synthesizing →
    ∃ plan, operation.plan = some plan ∧
      (plan.mode = .delegate →
        operation.delegations.map (·.delegation) = plan.delegations ∧
          ∀ state ∈ operation.delegations, state.outcome ≠ none)
  /-- A completed operation has a final answer. -/
  completed : operation.stage = .completed → operation.pendingFinalAnswer ≠ none
  /-- Nothing is to be done exactly when the operation has ended. -/
  next_none : nextAction operation = none ↔
    operation.stage = .completed ∨ operation.stage = .failed ∨ operation.stage = .unknown
  /-- Only a delegation without an outcome is dispatched. -/
  next_dispatch : ∀ pending, nextAction operation = some (.dispatchWorkers pending) →
    ∀ state ∈ pending, state ∈ operation.delegations ∧ state.outcome = none

/-- The laws follow from the invariant. -/
theorem ConductorInvariant.laws {operation : ConductorOperation}
    (hinv : ConductorInvariant operation) : ConductorLaws operation := by
  have hkeeps : ∀ calls, Keeps operation (ConductorCall.run calls operation) :=
    fun calls => (ConductorCall.run_spec hinv calls).2
  refine ⟨?_, fun h calls => (hkeeps calls).terminal h, ?_, ?_, ?_, ?_, hinv.completed, ?_, ?_⟩
  · intro call e operation' h
    rcases call.apply_returns operation with ⟨e', h'⟩ | ⟨operation'', h', -⟩
    · rw [h'] at h
      exact (Prod.mk.inj h).2.symm
    · rw [h'] at h
      cases (Prod.mk.inj h).1
  · intro plan hplan
    refine ⟨fun calls => (hkeeps calls).plan plan hplan, ?_, fun other hother => ?_⟩
    · simp [acceptPlan, hplan]
    · simp [acceptPlan, hplan, hother.symm]
  · intro state hstate outcome houtcome
    have hsome : state.outcome ≠ none := by simp [houtcome]
    -- Targets are distinct, so the search by target finds this very state.
    have hfind := find?_key hinv.targets hstate
    refine ⟨fun calls => (hkeeps calls).outcome state hstate hsome, ?_, fun other hother => ?_⟩
    · simp [recordWorkerOutcome, hfind, houtcome]
    · simp [recordWorkerOutcome, hfind, houtcome, hother.symm]
  · intro answer hanswer
    refine ⟨fun calls => (hkeeps calls).answer answer hanswer, ?_, fun other hother => ?_⟩
    · simp [recordSynthesis, hanswer]
    · simp [recordSynthesis, hanswer, hother.symm]
  · intro hstage
    obtain ⟨⟨plan, hplan, -⟩, hall⟩ := hinv.synthesizing hstage
    exact ⟨plan, hplan, fun _ => ⟨hinv.planned plan hplan, hall⟩⟩
  · unfold nextAction
    cases hstage : operation.stage with
    | delegating =>
      obtain ⟨-, -, state, hstate, hnone⟩ := hinv.delegating hstage
      have hpending : state ∈ operation.delegations.filter (·.outcome.isNone) := by
        simp [hstate, hnone]
      have hne := List.isEmpty_eq_false_iff.mpr (List.ne_nil_of_mem hpending)
      simp [hne]
    | synthesizing => cases operation.pendingFinalAnswer <;> simp
    | _ => simp
  · intro pending hnext state hstate
    unfold nextAction at hnext
    split at hnext
    · simp at hnext
    · simp at hnext
    · dsimp only at hnext
      split_ifs at hnext
      obtain rfl : operation.delegations.filter (·.outcome.isNone) = pending := by
        simpa using hnext
      simpa using List.mem_filter.mp hstate
    · split at hnext <;> simp at hnext
    all_goals simp at hnext

/-- Every operation that calls can lead to, from any start, obeys the laws. -/
theorem conductor_laws {sourceMessageId conductorId : String} {start : ConductorOperation}
    (h : ConductorOperation.tryNew sourceMessageId conductorId = .ok start)
    (calls : List ConductorCall) : ConductorLaws (ConductorCall.run calls start) :=
  (ConductorCall.run_spec (tryNew_invariant h) calls).1.laws

/-- A plan with two workers, of which one answers and is recorded twice and one fails, the answer
that is made of this, and its save. -/
def delegatedCalls : List ConductorCall :=
  [.beginPlanning,
    .acceptPlan ⟨1, .delegate, none, [⟨"grok", "Search"⟩, ⟨"claude-code", "Review"⟩]⟩,
    .recordWorkerOutcome "grok" (.succeeded "reply-1" "Found"),
    .recordWorkerOutcome "grok" (.succeeded "reply-1" "Found"),
    .recordWorkerOutcome "claude-code" (.failed "offline"), .recordSynthesis "Answer",
    .markFinalSaved]

/-- The laws of an operation that has gone through all of its stages. -/
theorem conductor_laws_sample :
    ∃ start, ConductorOperation.tryNew "m1" "codex" = .ok start ∧
      (ConductorCall.run delegatedCalls start).stage = .completed ∧
      (ConductorCall.run delegatedCalls start).pendingFinalAnswer = some "Answer" ∧
      ConductorLaws (ConductorCall.run delegatedCalls start) := by
  have hends : (ConductorOperation.tryNew "m1" "codex").map (fun start =>
      ((ConductorCall.run delegatedCalls start).stage,
        (ConductorCall.run delegatedCalls start).pendingFinalAnswer)) =
      .ok (.completed, some "Answer") := by
    decide +kernel
  rcases hstart : ConductorOperation.tryNew "m1" "codex" with e | start
  · rw [hstart] at hends
    cases hends
  · rw [hstart] at hends
    obtain ⟨hstage, hanswer⟩ := Prod.mk.inj (Except.ok.inj hends)
    exact ⟨start, rfl, hstage, hanswer, conductor_laws hstart _⟩

end Mio.Core.Conductor
