import Mio.Core.ConductorRuns
import Mio.Core.StableIdentifiers

/-!
# The conductor's plans

A plan is checked twice: by the parser, against the room, and by the operation that accepts it.
`parse_sound` says what the first check leaves, and `SoundPlan.accepted` that the second never
refuses it. The identifiers that the operation derives for a delegation are two hashes of the
operation, the target, and the ordinal. These differ from delegation to delegation, but the hashes
need not (`collidingPlan_accepted`).
-/

namespace Mio.Core.Conductor

open Library

/-! ## What the parser leaves -/

/-- An AI participant of the room that takes delegations, other than the owner and the conductor. -/
def Worker (context : ConductorPlanContext) (id : String) : Prop :=
  (∃ participant ∈ context.participants, participant.id = id ∧ participant.kind = .ai ∧
    participant.canReceiveDelegation = true) ∧ id ≠ context.ownerId ∧ id ≠ context.conductorId

/-- A plan for a room: an answer, or a task for each of one to three workers. -/
inductive SoundPlan (context : ConductorPlanContext) (plan : ConductorPlanV1) : Prop
  | answer (answer : String) (mode : plan.mode = .answer) (text : plan.directAnswer = some answer)
    (bounded : validBoundedText answer maximumDirectAnswerBytes = true)
    (alone : plan.delegations = [])
  | delegate (mode : plan.mode = .delegate) (silent : plan.directAnswer = none)
    (nonempty : 1 ≤ plan.delegations.length) (few : plan.delegations.length ≤ 3)
    (distinct : (plan.delegations.map (·.targetParticipantId)).Nodup)
    (workers : ∀ delegation ∈ plan.delegations, Worker context delegation.targetParticipantId)
    (tasks : ∀ delegation ∈ plan.delegations,
      validBoundedText delegation.task maximumDelegationTaskBytes = true)

/-- Every participant of a context that is accepted has an identifier. -/
theorem validateContext_ids {context : ConductorPlanContext}
    (h : validateContext context = .ok ()) :
    ∀ participant ∈ context.participants, validIdentifier participant.id = true := by
  unfold validateContext at h
  split_ifs at h with hids hnone
  have hdistinct : (insertDistinct (fun participant => validIdentifier participant.id)
      ConductorParticipant.id context.participants []).isSome = true := by
    simpa [Option.isSome_iff_ne_none] using hnone
  exact (insertDistinct_nil_isSome.mp hdistinct).1

/-- The loop over the delegations accepts bounded tasks for distinct workers. -/
theorem validateDelegations_spec {context : ConductorPlanContext}
    {delegations : List ConductorDelegation} {targets : List String}
    (h : validateDelegations context delegations targets = .ok ()) :
    (delegations.map (·.targetParticipantId)).Nodup ∧
      ∀ delegation ∈ delegations, Worker context delegation.targetParticipantId ∧
        validBoundedText delegation.task maximumDelegationTaskBytes = true ∧
        delegation.targetParticipantId ∉ targets := by
  -- By induction on the delegations, for any targets that came before.
  induction delegations generalizing targets with
  | nil => simp
  | cons delegation rest ih =>
    rw [validateDelegations] at h
    split_ifs at h with htask howner hconductor hduplicate
    split at h
    · cases h
    rename_i participant hfind
    -- The participant that is found is the target, and it is one that can work.
    split_ifs at h with hkind hsupported
    obtain ⟨hdistinct, hrest⟩ := ih h
    have hid : participant.id = delegation.targetParticipantId := by
      simpa using List.find?_some hfind
    have hworker : Worker context delegation.targetParticipantId := by
      refine ⟨⟨participant, List.mem_of_find?_eq_some hfind, hid, ?_, ?_⟩, ?_, ?_⟩
      · simpa using hkind
      · simpa using hsupported
      · simpa using howner
      · simpa using hconductor
    have hfresh : delegation.targetParticipantId ∉ targets := by simpa using hduplicate
    constructor
    · rw [List.map_cons, List.nodup_cons, List.mem_map]
      refine ⟨?_, hdistinct⟩
      rintro ⟨other, hother, heq⟩
      exact (hrest other hother).2.2 (heq ▸ List.mem_cons_self)
    · rw [List.forall_mem_cons]
      refine ⟨⟨hworker, by simpa using htask, hfresh⟩, fun other hother => ?_⟩
      obtain ⟨hother_worker, hother_task, hother_fresh⟩ := hrest other hother
      exact ⟨hother_worker, hother_task, fun hmem => hother_fresh (List.mem_cons_of_mem _ hmem)⟩

/-- What the parser returns is a plan for the room, which it has checked. -/
theorem parse_sound {fromSlice : Bytes → Option RawConductorPlanV1} {input : Bytes}
    {context : ConductorPlanContext} {plan : ConductorPlanV1}
    (hparse : parseConductorPlanV1 fromSlice input context = .ok plan) :
    validateContext context = .ok () ∧ SoundPlan context plan := by
  unfold parseConductorPlanV1 at hparse
  split at hparse
  · cases hparse
  rename_i hcontext
  refine ⟨hcontext, ?_⟩
  -- The guards come in the order of the source, and each of the two modes returns a plan.
  split_ifs at hparse
  split at hparse
  · cases hparse
  split_ifs at hparse
  split at hparse
  · cases hparse
  dsimp only at hparse
  rename_i raw _ _ _ _
  split at hparse
  · rename_i hmode
    split_ifs at hparse with hchecked
    obtain rfl := Except.ok.inj hparse
    rw [Bool.and_eq_true, Option.any_eq_true] at hchecked
    obtain ⟨-, answer, hanswer, hbounded⟩ := hchecked
    exact .answer answer hmode hanswer hbounded rfl
  · rename_i hmode
    split_ifs at hparse with hcount
    split at hparse
    · cases hparse
    rename_i hdelegations
    obtain rfl := Except.ok.inj hparse
    obtain ⟨hdistinct, hall⟩ := validateDelegations_spec hdelegations
    simp only [Bool.or_eq_true, not_or, Bool.not_eq_true', Bool.not_eq_false,
      Bool.and_eq_true, decide_eq_true_eq] at hcount
    obtain ⟨-, hsome, hfew⟩ := hcount
    exact .delegate hmode rfl hsome hfew hdistinct (fun delegation h => (hall delegation h).1)
      fun delegation h => (hall delegation h).2.1

/-! ## What the operation accepts -/

/-- A step leaves the operation's identifiers. -/
theorem ConductorStep.ids {operation operation' : ConductorOperation}
    (hstep : ConductorStep operation operation') : operation'.ids = operation.ids := by
  cases hstep <;> rfl

/-- No call changes the identifiers of an operation. -/
theorem ConductorCall.run_ids (calls : List ConductorCall) (operation : ConductorOperation) :
    (run calls operation).ids = operation.ids := by
  induction calls generalizing operation with
  | nil => rfl
  | cons call calls ih =>
    show (run calls (call.apply operation).2).ids = operation.ids
    rw [ih, (call.apply_step operation).ids]

/-- The loop that makes the states succeeds on distinct identifiers with bounded tasks, if there are
ordinals left, and gives each state the identifiers of its target and ordinal. -/
theorem delegationStates_ok {ids : ConductorOperationIds} {delegations : List ConductorDelegation}
    {ordinal : ℕ} {targets : List String} (hcount : ordinal + delegations.length ≤ maximumWorkers)
    (hdistinct : (delegations.map (·.targetParticipantId)).Nodup)
    (hids : ∀ delegation ∈ delegations, validIdentifier delegation.targetParticipantId = true)
    (htasks : ∀ delegation ∈ delegations,
      validBoundedText delegation.task maximumDelegationTaskBytes = true)
    (hfresh : ∀ delegation ∈ delegations, delegation.targetParticipantId ∉ targets) :
    ∃ states, delegationStates ids delegations ordinal targets = .ok states ∧
      ∀ (i : ℕ) (state : ConductorDelegationState), states[i]? = some state →
        ids.delegation state.delegation.targetParticipantId (ordinal + i) = .ok state.ids := by
  -- By induction on the delegations: the ordinals are counted from any start below the limit.
  induction delegations generalizing ordinal targets with
  | nil => exact ⟨[], rfl, by simp⟩
  | cons delegation rest ih =>
    rw [List.map_cons, List.nodup_cons] at hdistinct
    rw [List.forall_mem_cons] at hids htasks hfresh
    rw [List.length_cons] at hcount
    -- The target of this delegation is among those that the rest avoids.
    have hrest_fresh : ∀ other ∈ rest,
        other.targetParticipantId ∉ delegation.targetParticipantId :: targets := by
      intro other hother hmem
      rcases List.mem_cons.mp hmem with heq | hmem
      · exact hdistinct.1 (List.mem_map.mpr ⟨other, hother, heq⟩)
      · exact hfresh.2 other hother hmem
    have hcount' : ordinal + 1 + rest.length ≤ maximumWorkers := by omega
    obtain ⟨states, hstates, hspec⟩ := ih hcount' hdistinct.2 hids.2 htasks.2 hrest_fresh
    have hordinal : ¬ maximumWorkers ≤ ordinal := by omega
    rw [delegationStates]
    simp only [hids.1, htasks.1, hfresh.1, ConductorOperationIds.delegation, hordinal, hstates,
      Bool.not_true, Bool.false_or, List.contains_eq_mem, decide_false, Bool.false_eq_true,
      if_false, Except.map]
    refine ⟨_, rfl, fun i state hstate => ?_⟩
    cases i with
    | zero =>
      obtain rfl := Option.some.inj hstate
      simp [hids.1, hordinal]
    | succ i =>
      have hnext := hspec i state hstate
      rw [Nat.add_assoc, Nat.add_comm 1 i] at hnext
      exact hnext

/-- The operation that an operation with the identifiers `ids` becomes once it accepts a plan: it
has the plan's delegations, each with the identifiers derived from its target and its place. -/
structure Accepted (ids : ConductorOperationIds) (plan : ConductorPlanV1)
    (operation : ConductorOperation) : Prop where
  accepted : operation.plan = some plan
  delegations : operation.delegations.map (·.delegation) = plan.delegations
  ids : ∀ (i : ℕ) (state : ConductorDelegationState), operation.delegations[i]? = some state →
    ids.delegation state.delegation.targetParticipantId i = .ok state.ids

/-- An operation that waits for a plan accepts every plan for its room. -/
theorem SoundPlan.accepted {context : ConductorPlanContext} {plan : ConductorPlanV1}
    (hsound : SoundPlan context plan) (hcontext : validateContext context = .ok ())
    {operation : ConductorOperation} (hinv : ConductorInvariant operation)
    (hstage : operation.stage = .planning) :
    ∃ operation', acceptPlan plan operation = (.ok (), operation') ∧
      Accepted operation.ids plan operation' := by
  -- While it is planning, the operation has no plan and nothing of one.
  have hnew := hinv.planning (.inr hstage)
  have hnone := (hinv.unplanned hnew).1
  cases hsound with
  | answer answer hmode htext hbounded halone =>
    have hfilter : plan.directAnswer.filter (validBoundedText · maximumDirectAnswerBytes) =
        some answer := by
      simp [htext, hbounded]
    refine ⟨{ operation with
      pendingFinalAnswer := some answer, stage := .synthesizing, plan := some plan },
        ?_, rfl, ?_, ?_⟩
    · simp [acceptPlan, hnew, hstage, hmode, hfilter, halone]
    · simp [hnone, halone]
    · simp [hnone]
  | delegate hmode hsilent hnonempty hfew hdistinct hworkers htasks =>
    -- The targets are participants of the context, whose ids were validated.
    have hids : ∀ delegation ∈ plan.delegations,
        validIdentifier delegation.targetParticipantId = true := by
      intro delegation hdelegation
      obtain ⟨⟨participant, hmem, hid, -⟩, -⟩ := hworkers delegation hdelegation
      exact hid ▸ validateContext_ids hcontext participant hmem
    have hmaximum : plan.delegations.length ≤ maximumWorkers := hfew
    have hcount : 0 + plan.delegations.length ≤ maximumWorkers := by omega
    have hfresh : ∀ delegation ∈ plan.delegations, delegation.targetParticipantId ∉ [] := by simp
    obtain ⟨states, hstates, hspec⟩ :=
      @delegationStates_ok operation.ids _ _ _ hcount hdistinct hids
      htasks hfresh
    refine ⟨{ operation with delegations := states, stage := .delegating, plan := some plan }, ?_,
      rfl, (delegationStates_spec hstates).1.delegation, fun i state hstate => ?_⟩
    · simp [acceptPlan, hnew, hstage, hmode, hsilent, hnonempty, hmaximum, hstates]
    · have hstate_ids := hspec i state hstate
      rwa [Nat.zero_add] at hstate_ids

/-! ## The identifiers of a plan's delegations -/

/-- What is hashed for the identifiers of a delegation. -/
def delegationBytes (ids : ConductorOperationIds) (targetParticipantId : String) (ordinal : ℕ) :
    Bytes :=
  hashedBytes [ids.operationId, targetParticipantId, toString ordinal]

/-- For two targets, different bytes are hashed. -/
theorem delegationBytes_ne {ids : ConductorOperationIds} {target target' : String}
    {ordinal ordinal' : ℕ} (hids : ids.operationId.utf8ByteSize < 2 ^ 64)
    (htarget : validIdentifier target = true) (htarget' : validIdentifier target' = true)
    (hordinal : ordinal < maximumWorkers) (hordinal' : ordinal' < maximumWorkers)
    (hne : target ≠ target') :
    delegationBytes ids target ordinal ≠ delegationBytes ids target' ordinal' := by
  have hsmall : ∀ n < maximumWorkers, (toString n).utf8ByteSize < 2 ^ 64 := by decide
  have hbound : ∀ id, validIdentifier id = true → id.utf8ByteSize < 2 ^ 64 := by
    intro id hid
    have hle : id.utf8ByteSize ≤ 128 := (boundedBytes_iff.mp hid).2.1
    omega
  have hparts {id : String} (hid : validIdentifier id = true) {n : ℕ} (hn : n < maximumWorkers) :
      ∀ part ∈ [ids.operationId, id, toString n], part.utf8ByteSize < 2 ^ 64 := by
    intro part hpart
    simp only [List.mem_cons, List.not_mem_nil, or_false] at hpart
    rcases hpart with rfl | rfl | rfl
    · exact hids
    · exact hbound _ hid
    · exact hsmall n hn
  intro heq
  have hlist := hashedBytes_inj (hparts htarget hordinal) (hparts htarget' hordinal') heq
  exact hne (List.cons.inj (List.cons.inj hlist).2).1

/-- The identifiers of a delegation are those of its target and ordinal. -/
theorem delegation_ids {ids : ConductorOperationIds} {target : String} {ordinal : ℕ}
    {delegationIds : ConductorDelegationIds}
    (h : ids.delegation target ordinal = .ok delegationIds) :
    validIdentifier target = true ∧ ordinal < maximumWorkers ∧
      delegationIds =
        { messageId := stableIdentifier "conductor-delegation-v1"
            [ids.operationId, target, toString ordinal]
          dispatchId := stableIdentifier "conductor-dispatch-v1"
            [ids.operationId, target, toString ordinal] } := by
  unfold ConductorOperationIds.delegation at h
  split_ifs at h with hchecked
  simp only [Bool.or_eq_true, Bool.not_eq_true', decide_eq_true_eq, not_or, Bool.not_eq_false,
    not_le] at hchecked
  exact ⟨hchecked.1, hchecked.2, (Except.ok.inj h).symm⟩

/-- The identifiers of the delegations at two places of a plan come from different bytes, and agree
only if both hashes of these do. -/
theorem Accepted.distinct {ids : ConductorOperationIds} {plan : ConductorPlanV1}
    {operation : ConductorOperation} (haccepted : Accepted ids plan operation)
    (hids : ids.operationId.utf8ByteSize < 2 ^ 64)
    (hdistinct : (plan.delegations.map (·.targetParticipantId)).Nodup) {i j : ℕ} (hne : i ≠ j)
    {state other : ConductorDelegationState} (hstate : operation.delegations[i]? = some state)
    (hother : operation.delegations[j]? = some other) :
    let bytes := delegationBytes ids state.delegation.targetParticipantId i
    let bytes' := delegationBytes ids other.delegation.targetParticipantId j
    bytes ≠ bytes' ∧
      (state.ids.messageId = other.ids.messageId ↔ lanes bytes = lanes bytes') ∧
      (state.ids.dispatchId = other.ids.dispatchId ↔ lanes bytes = lanes bytes') := by
  intro bytes bytes'
  obtain ⟨hvalid, hi, hstate_ids⟩ := delegation_ids (haccepted.ids i state hstate)
  obtain ⟨hvalid', hj, hother_ids⟩ := delegation_ids (haccepted.ids j other hother)
  -- One target for each delegation, so two delegations are hashed from two targets.
  have htargets : (operation.delegations.map (·.delegation.targetParticipantId)).Nodup := by
    rw [← haccepted.delegations, List.map_map] at hdistinct
    exact hdistinct
  have htarget : state.delegation.targetParticipantId ≠ other.delegation.targetParticipantId := by
    intro heq
    have hmap : (operation.delegations.map (·.delegation.targetParticipantId))[i]? =
        (operation.delegations.map (·.delegation.targetParticipantId))[j]? := by
      rw [List.getElem?_map, List.getElem?_map, hstate, hother,
        Option.map_some, Option.map_some, heq]
    obtain ⟨hlt, -⟩ := List.getElem?_eq_some_iff.mp hstate
    exact hne ((List.getElem?_inj (by simpa using hlt) htargets).mp hmap)
  refine ⟨delegationBytes_ne hids hvalid hvalid' hi hj htarget, ?_, ?_⟩
  · rw [hstate_ids, hother_ids]
    exact stableIdentifier_eq_iff
  · rw [hstate_ids, hother_ids]
    exact stableIdentifier_eq_iff

/-! ## The two checks agree -/

/-- An operation that starts has the identifier that is derived for it. -/
theorem tryNew_eq_ok {sourceMessageId conductorId : String} {start : ConductorOperation}
    (h : ConductorOperation.tryNew sourceMessageId conductorId = .ok start) :
    start.ids.operationId =
      stableIdentifier "conductor-operation-v1" [sourceMessageId, conductorId] := by
  unfold ConductorOperation.tryNew ConductorOperationIds.derive at h
  split at h
  · cases h
  rename_i ids hids
  split_ifs at hids
  obtain rfl := Except.ok.inj hids
  obtain rfl := Except.ok.inj h
  rfl

/-- What the parser returns is a plan for the room, and every operation of the room's conductor that
waits for a plan accepts it. The delegations' identifiers come from different bytes, and agree only
if both hashes of these do. -/
theorem parsed_plan_accepted {fromSlice : Bytes → Option RawConductorPlanV1} {input : Bytes}
    {context : ConductorPlanContext} {plan : ConductorPlanV1}
    (hparse : parseConductorPlanV1 fromSlice input context = .ok plan) :
    SoundPlan context plan ∧
      ∀ (sourceMessageId : String) (start : ConductorOperation),
        ConductorOperation.tryNew sourceMessageId context.conductorId = .ok start →
        ∀ calls, (ConductorCall.run calls start).stage = .planning →
          ∃ operation, acceptPlan plan (ConductorCall.run calls start) = (.ok (), operation) ∧
            Accepted start.ids plan operation ∧
            ∀ (i j : ℕ) (state other : ConductorDelegationState), i ≠ j →
              operation.delegations[i]? = some state → operation.delegations[j]? = some other →
              let bytes := delegationBytes start.ids state.delegation.targetParticipantId i
              let bytes' := delegationBytes start.ids other.delegation.targetParticipantId j
              bytes ≠ bytes' ∧
                (state.ids.messageId = other.ids.messageId ↔ lanes bytes = lanes bytes') ∧
                (state.ids.dispatchId = other.ids.dispatchId ↔ lanes bytes = lanes bytes') := by
  obtain ⟨hcontext, hsound⟩ := parse_sound hparse
  refine ⟨hsound, fun sourceMessageId start hstart calls hstage => ?_⟩
  -- Whatever the calls were, the operation keeps its invariant and its ids.
  have hinv := (ConductorCall.run_spec (tryNew_invariant hstart) calls).1
  obtain ⟨operation, haccept, haccepted⟩ := hsound.accepted hcontext hinv hstage
  rw [ConductorCall.run_ids] at haccepted
  have hids : start.ids.operationId.utf8ByteSize < 2 ^ 64 := by
    rw [tryNew_eq_ok hstart, utf8ByteSize_stableIdentifier]
    decide
  have hdistinct : (plan.delegations.map (·.targetParticipantId)).Nodup := by
    cases hsound with
    | answer _ _ _ _ halone => simp [halone]
    | delegate _ _ _ _ hdistinct => exact hdistinct
  exact ⟨operation, haccept, haccepted, fun i j state other hne hstate hother =>
    haccepted.distinct hids hdistinct hne hstate hother⟩

/-! ## Two hashes that agree -/

/-- Two workers whose delegations get the same identifiers, as the first and the second of a plan.
-/
def collidingWorkers : String × String :=
  ("gryOFJ1e7yEuhs3KP5LlrQ9ClaZWudPAmmJjJOnVkn5rGECihWuKSLLENdt8OdUo" ++
    "QUOiwBKDZKwBuGKDqjuvtCgf4LDvP85rjtkUrN5fDiCJWKf5vkcC4UvIMYwkuAd7",
    "m1Xz86PcUUBog14cPYKCHIlsHMhovU40LFSVlJYYl0rmJgBJYk4XOGVIJA7d276T" ++
    "NMvOW4TJA4LziCOzS6Ay9IsQmBBE0K0JQEkBIkzfhzHbvKZJ2Nqjo2tDfzHjRxhs")

/-- A room with the two workers whose identifiers have one hash. -/
def collidingContext : ConductorPlanContext where
  ownerId := "owner"
  conductorId := "codex"
  participants :=
    [{ id := "owner", kind := .human, canReceiveDelegation := false },
      { id := "codex", kind := .ai, canReceiveDelegation := true },
      { id := collidingWorkers.1, kind := .ai, canReceiveDelegation := true },
      { id := collidingWorkers.2, kind := .ai, canReceiveDelegation := true }]

/-- A plan that gives each of them a task. -/
def collidingPlan : ConductorPlanV1 where
  version := 1
  mode := .delegate
  directAnswer := none
  delegations :=
    [{ targetParticipantId := collidingWorkers.1, task := "Read" },
      { targetParticipantId := collidingWorkers.2, task := "Write" }]

/-- The plan as the conductor writes it. -/
def collidingText : String :=
  "\x7b\"version\":1,\"mode\":\"delegate\",\"directAnswer\":null,\"delegations\":[" ++
    "\x7b\"targetParticipantId\":\"" ++ (collidingWorkers.1 ++ "\",\"task\":\"Read\"\x7d,") ++
    "\x7b\"targetParticipantId\":\"" ++ (collidingWorkers.2 ++ "\",\"task\":\"Write\"\x7d]\x7d")

/-- What the reader of JSON makes of this text. -/
def collidingReader (input : Bytes) : Option RawConductorPlanV1 :=
  if input = asBytes collidingText then
    some { version := 1, mode := .delegate, directAnswer := .null
           delegations := collidingPlan.delegations }
  else none

/-- The context passes its check. -/
theorem collidingContext_valid : validateContext collidingContext = .ok () := by decide +kernel

/-- The delegations pass theirs. -/
theorem collidingPlan_valid :
    validateDelegations collidingContext collidingPlan.delegations [] = .ok () := by decide

/-- The plan is read from its text. -/
theorem collidingPlan_parsed :
    parseConductorPlanV1 collidingReader (asBytes collidingText) collidingContext =
      .ok collidingPlan := by
  have hlength : ¬ maximumPlanBytes < (asBytes collidingText).length := by decide +kernel
  have hread : collidingReader (asBytes collidingText) =
      some { version := 1, mode := .delegate, directAnswer := .null
             delegations := collidingPlan.delegations } := if_pos rfl
  rw [parseConductorPlanV1, collidingContext_valid]
  simp only [hlength, isUtf8_asBytes, hread, if_false, Bool.not_true, Bool.false_eq_true]
  have hvalid := collidingPlan_valid
  rw [hvalid]
  rfl

/-- The operation for the message `message-1`, which waits for a plan. -/
def collidingOperation : ConductorOperation where
  ids :=
    { operationId := "conductor-operation-v1-506ff6a1bd0a9af3afd88d2e9a93b894"
      finalMessageId := "conductor-final-v1-f0dd38c198af88e2351a6e4c413f71d0" }
  sourceMessageId := "message-1"
  conductorId := "codex"
  stage := .prepared
  plan := none
  delegations := []
  pendingFinalAnswer := none

/-- The identifiers of both delegations. -/
def collidingIds : ConductorDelegationIds where
  messageId := "conductor-delegation-v1-ca3e1c9cf3cc2e8aaf3254b7d3af51bf"
  dispatchId := "conductor-dispatch-v1-ca3e1c9cf3cc2e8aaf3254b7d3af51bf"

/-- The operation once it has accepted the plan. -/
def collidingAccepted : ConductorOperation :=
  { collidingOperation with
    stage := .delegating, plan := some collidingPlan
    delegations := collidingPlan.delegations.map fun delegation =>
      { delegation, ids := collidingIds, outcome := none } }

/-- A parsed plan for two workers, which an operation accepts with the same identifiers for both. -/
theorem collidingPlan_accepted :
    parseConductorPlanV1 collidingReader (asBytes collidingText) collidingContext =
        .ok collidingPlan ∧
      ConductorOperation.tryNew "message-1" "codex" = .ok collidingOperation ∧
      (ConductorCall.run [.beginPlanning] collidingOperation).stage = .planning ∧
      acceptPlan collidingPlan (ConductorCall.run [.beginPlanning] collidingOperation) =
        (.ok (), collidingAccepted) ∧
      collidingAccepted.delegations.map (·.ids) = [collidingIds, collidingIds] := by
  refine ⟨collidingPlan_parsed, ?_, rfl, ?_, rfl⟩
  · decide +kernel
  · decide +kernel

/-- What is accepted of such a plan is sound. -/
theorem parsed_plan_accepted_colliding : SoundPlan collidingContext collidingPlan :=
  (parsed_plan_accepted collidingPlan_parsed).1

end Mio.Core.Conductor
