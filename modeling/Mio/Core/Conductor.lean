import Mio.Core.Room

/-!
# The conductor

The conductor of `crates/moe-core/src/conductor.rs`: the plan that it is asked for and how the plan
is parsed, the identifiers derived for an operation, and the operation itself, which is a state
machine with seven stages. As for the rooms, a call takes the operation and returns its result
together with the operation that it leaves.

`serde_json` is a parameter of the parser, `fromSlice`.
-/

namespace Mio.Core.Conductor

open Library

/-- The longest identifier, in bytes. -/
def maximumIdentifierBytes : ℕ := 128

/-- The longest answer that is read as a plan, in bytes. -/
def maximumPlanBytes : ℕ := 16000

/-- The longest direct answer of a plan, in bytes. -/
def maximumDirectAnswerBytes : ℕ := 100000

/-- The longest task of a delegation, in bytes. -/
def maximumDelegationTaskBytes : ℕ := 4000

/-- The longest text of an outcome or of an answer, in bytes. -/
def maximumResultTextBytes : ℕ := 100000

/-- The most workers that a plan can have. -/
def maximumWorkers : ℕ := 3

/-- An identifier: ASCII letters and digits and, past the first byte, `.`, `_`, and `-`. -/
def validIdentifier : String → Bool :=
  boundedBytes maximumIdentifierBytes fun index byte =>
    isAsciiAlphanumeric byte || (byte == 0x2e || byte == 0x5f || byte == 0x2d) && 0 < index

/-- A text that is neither blank nor too long. -/
def validBoundedText (value : String) (maximumBytes : ℕ) : Bool :=
  !isBlank value && value.utf8ByteSize ≤ maximumBytes

/-! ## The plan -/

/-- A participant of the room, as a plan sees it. -/
structure ConductorParticipant where
  id : String
  kind : RoomParticipantKind
  canReceiveDelegation : Bool
  deriving DecidableEq

/-- Whom a plan is for, who makes it, and who is in the room. -/
structure ConductorPlanContext where
  ownerId : String
  conductorId : String
  participants : List ConductorParticipant

/-- Whether the conductor answers or delegates. -/
inductive ConductorPlanMode where
  | answer
  | delegate
  deriving DecidableEq

/-- A task for a worker. -/
structure ConductorDelegation where
  targetParticipantId : String
  task : String
  deriving DecidableEq

/-- A plan that has passed its checks. -/
structure ConductorPlanV1 where
  version : UInt8
  mode : ConductorPlanMode
  directAnswer : Option String
  delegations : List ConductorDelegation
  deriving DecidableEq

/-- Why an answer is not a plan. -/
inductive ConductorPlanError where
  | invalidContext
  | invalidUtf8
  | envelopeTooLarge
  | invalidEnvelope
  | unsupportedVersion
  | invalidDirectAnswer
  | invalidDelegationCount
  | invalidDelegationTask
  | duplicateTarget
  | targetIsOwner
  | targetIsConductor
  | targetNotRoomMember
  | targetIsHuman
  | targetUnsupported
  deriving DecidableEq

/-- A JSON value, as far as the parser tells values apart. -/
inductive Value where
  | null
  | string (value : String)
  /-- A boolean, a number, an array, or an object. -/
  | other
  deriving DecidableEq

/-- A plan as it is read, before its checks. -/
structure RawConductorPlanV1 where
  version : UInt8
  mode : ConductorPlanMode
  directAnswer : Value
  delegations : List ConductorDelegation
  deriving DecidableEq

/-- The check of the context, before anything is read. -/
def validateContext (context : ConductorPlanContext) : Except ConductorPlanError Unit :=
  if !validIdentifier context.ownerId || !validIdentifier context.conductorId ||
      context.ownerId == context.conductorId then
    .error .invalidContext
  else if (insertDistinct (fun participant => validIdentifier participant.id) (·.id)
      context.participants []).isNone then
    .error .invalidContext
  else
    let owner := context.participants.find? fun participant => participant.id == context.ownerId
    let conductor :=
      context.participants.find? fun participant => participant.id == context.conductorId
    if !owner.any (fun participant => participant.kind == .human) ||
        !conductor.any (fun participant => participant.kind == .ai) then
      .error .invalidContext
    else .ok ()

/-- The loop over the delegations, with the targets seen so far. -/
def validateDelegations (context : ConductorPlanContext) :
    List ConductorDelegation → List String → Except ConductorPlanError Unit
  | [], _ => .ok ()
  | delegation :: rest, targets =>
    let target := delegation.targetParticipantId
    if !validBoundedText delegation.task maximumDelegationTaskBytes then
      .error .invalidDelegationTask
    else if target == context.ownerId then .error .targetIsOwner
    else if target == context.conductorId then .error .targetIsConductor
    else if targets.contains target then .error .duplicateTarget
    else
      match context.participants.find? fun participant => participant.id == target with
      | none => .error .targetNotRoomMember
      | some participant =>
        if participant.kind != .ai then .error .targetIsHuman
        else if !participant.canReceiveDelegation then .error .targetUnsupported
        else validateDelegations context rest (target :: targets)

/-- Whether the bytes are the encoding of a text (`str::from_utf8`). -/
def isUtf8 (input : Bytes) : Bool := (ByteArray.mk input.toArray).validateUTF8

/-- The bytes of a text are text. -/
theorem isUtf8_asBytes (value : String) : isUtf8 (asBytes value) = true := by
  have hbytes : ByteArray.mk (asBytes value).toArray = value.toByteArray := by
    simp [asBytes]
  rw [isUtf8, hbytes, ByteArray.validateUTF8_eq_true_iff]
  exact value.isValidUTF8

/-- The plan that an answer holds, by the checks of the source in their order. -/
def parseConductorPlanV1 (fromSlice : Bytes → Option RawConductorPlanV1) (input : Bytes)
    (context : ConductorPlanContext) : Except ConductorPlanError ConductorPlanV1 :=
  match validateContext context with
  | .error e => .error e
  | .ok () =>
    -- The envelope is checked before anything in it.
    if maximumPlanBytes < input.length then .error .envelopeTooLarge
    else if !isUtf8 input then .error .invalidUtf8
    else
      match fromSlice input with
      | none => .error .invalidEnvelope
      | some raw =>
        if raw.version != 1 then .error .unsupportedVersion
        else
          -- A direct answer is absent, null or a text; anything else is refused whatever the mode
          -- is.
          match raw.directAnswer with
          | .other => .error .invalidDirectAnswer
          | directAnswer =>
            let directAnswer :=
              match directAnswer with
              | .string answer => some answer
              | _ => none
            match raw.mode with
            | .answer =>
              if raw.delegations.isEmpty &&
                  directAnswer.any (validBoundedText · maximumDirectAnswerBytes) then
                .ok { version := 1, mode := raw.mode, directAnswer, delegations := [] }
              else .error .invalidDirectAnswer
            | .delegate =>
              -- A plan that delegates has no answer of its own, and one to three delegations.
              if directAnswer.isSome ||
                  !(1 ≤ raw.delegations.length && raw.delegations.length ≤ maximumWorkers) then
                .error .invalidDelegationCount
              else
                match validateDelegations context raw.delegations [] with
                | .error e => .error e
                | .ok () =>
                  .ok { version := 1, mode := raw.mode, directAnswer := none,
                        delegations := raw.delegations }

/-! ## Identifiers -/

/-- One byte of the hash that identifiers are made of. -/
def fnvStep (state : UInt64) (byte : UInt8) : UInt64 :=
  (state ^^^ byte.toUInt64) * 0x00000100000001b3

/-- The bytes of a number, the least significant first (`u64::to_le_bytes`). -/
def toLeBytes (n : UInt64) : Bytes :=
  (List.range 8).map fun i => (n >>> (8 * i.toUInt64)).toUInt8

/-- A number in sixteen hexadecimal digits (`{:016x}`). -/
def lowerHex16 (n : UInt64) : String :=
  .ofList ((List.range 16).map fun i => Nat.digitChar (n.toNat / 16 ^ (15 - i) % 16))

/-- The identifier derived from a text's parts: two hashes of the parts, each with its length. -/
def stableIdentifier (pref : String) (parts : List String) : String :=
  let bytes := parts.flatMap fun part =>
    toLeBytes part.utf8ByteSize.toUInt64 ++ asBytes part
  let first := bytes.foldl fnvStep 0xcbf29ce484222325
  let second := bytes.foldl (fun state byte => fnvStep state (byte ^^^ 0xa5)) 0x84222325cbf29ce4
  pref ++ ("-" ++ (lowerHex16 first ++ lowerHex16 second))

/-- Why a call on an operation fails. -/
inductive ConductorOperationError where
  | invalidIdentity
  | invalidStage
  | invalidOutcome
  | conflictingReplay
  | unknownWorker
  deriving DecidableEq

/-- The identifiers that belong to a delegation. -/
structure ConductorDelegationIds where
  messageId : String
  dispatchId : String
  deriving DecidableEq

/-- The identifiers that belong to an operation. -/
structure ConductorOperationIds where
  operationId : String
  finalMessageId : String
  deriving DecidableEq

/-- The identifiers that the source message and the conductor determine. -/
def ConductorOperationIds.derive (sourceMessageId conductorId : String) :
    Except ConductorOperationError ConductorOperationIds :=
  if !validIdentifier sourceMessageId || !validIdentifier conductorId then
    .error .invalidIdentity
  else
    let operationId := stableIdentifier "conductor-operation-v1" [sourceMessageId, conductorId]
    .ok { operationId, finalMessageId := stableIdentifier "conductor-final-v1" [operationId] }

/-- The identifiers that the operation, the worker and its place in the plan determine. -/
def ConductorOperationIds.delegation (ids : ConductorOperationIds) (targetParticipantId : String)
    (ordinal : ℕ) : Except ConductorOperationError ConductorDelegationIds :=
  if !validIdentifier targetParticipantId || maximumWorkers ≤ ordinal then .error .invalidIdentity
  else
    let parts := [ids.operationId, targetParticipantId, toString ordinal]
    .ok { messageId := stableIdentifier "conductor-delegation-v1" parts
          dispatchId := stableIdentifier "conductor-dispatch-v1" parts }

/-! ## The operation -/

/-- How far an operation is. -/
inductive ConductorOperationStage where
  | prepared
  | planning
  | delegating
  | synthesizing
  | completed
  | failed
  | unknown
  deriving DecidableEq

/-- What a delegation comes to. -/
inductive WorkerOutcome where
  | succeeded (replyMessageId body : String)
  | failed (reason : String)
  | unknown
  deriving DecidableEq

/-- A delegation with its identifiers and, later, its outcome. -/
structure ConductorDelegationState where
  delegation : ConductorDelegation
  ids : ConductorDelegationIds
  outcome : Option WorkerOutcome
  deriving DecidableEq

/-- What is to be done next for an operation. -/
inductive ConductorNextAction where
  | beginPlanning
  | requestPlan (operationId : String)
  | dispatchWorkers (pending : List ConductorDelegationState)
  | requestSynthesis (operationId : String) (results : List ConductorDelegationState)
  | saveFinalAnswer (messageId body : String)
  deriving DecidableEq

/-- An operation: the plan, what came of its delegations, and the answer that is still to be
saved. -/
structure ConductorOperation where
  ids : ConductorOperationIds
  sourceMessageId : String
  conductorId : String
  stage : ConductorOperationStage
  plan : Option ConductorPlanV1
  delegations : List ConductorDelegationState
  pendingFinalAnswer : Option String
  deriving DecidableEq

/-- The texts of an outcome are within their bounds. -/
def validWorkerOutcome : WorkerOutcome → Bool
  | .succeeded replyMessageId body =>
    validIdentifier replyMessageId && validBoundedText body maximumResultTextBytes
  | .failed reason => validBoundedText reason maximumDelegationTaskBytes
  | .unknown => true

/-- An operation on a message, with nothing done yet. -/
def ConductorOperation.tryNew (sourceMessageId conductorId : String) :
    Except ConductorOperationError ConductorOperation :=
  match ConductorOperationIds.derive sourceMessageId conductorId with
  | .error e => .error e
  | .ok ids =>
    .ok { ids, sourceMessageId, conductorId, stage := .prepared, plan := none, delegations := []
          pendingFinalAnswer := none }

/-- What is to be done next, if anything. -/
def nextAction (operation : ConductorOperation) : Option ConductorNextAction :=
  match operation.stage with
  | .prepared => some .beginPlanning
  | .planning => some (.requestPlan operation.ids.operationId)
  | .delegating =>
    let pending := operation.delegations.filter fun delegation => delegation.outcome.isNone
    if !pending.isEmpty then some (.dispatchWorkers pending) else none
  | .synthesizing =>
    match operation.pendingFinalAnswer with
    | some body => some (.saveFinalAnswer operation.ids.finalMessageId body)
    | none => some (.requestSynthesis operation.ids.operationId operation.delegations)
  | .completed | .failed | .unknown => none

/-- Go on to the plan. A second call changes nothing. -/
def beginPlanning (operation : ConductorOperation) :
    Except ConductorOperationError Unit × ConductorOperation :=
  match operation.stage with
  | .prepared => (.ok (), { operation with stage := .planning })
  | .planning => (.ok (), operation)
  | _ => (.error .invalidStage, operation)

/-- The loop that makes the states of the delegations, with the targets seen so far. -/
def delegationStates (ids : ConductorOperationIds) : List ConductorDelegation → ℕ → List String →
    Except ConductorOperationError (List ConductorDelegationState)
  | [], _, _ => .ok []
  | delegation :: rest, ordinal, targets =>
    let target := delegation.targetParticipantId
    if !validIdentifier target || !validBoundedText delegation.task maximumDelegationTaskBytes ||
        targets.contains target then
      .error .invalidOutcome
    else
      match ids.delegation target ordinal with
      | .error e => .error e
      | .ok delegationIds =>
        (delegationStates ids rest (ordinal + 1) (target :: targets)).map fun states =>
          { delegation, ids := delegationIds, outcome := none } :: states

/-- Take a plan. The same plan again is no error, and another one is. -/
def acceptPlan (plan : ConductorPlanV1) (operation : ConductorOperation) :
    Except ConductorOperationError Unit × ConductorOperation :=
  match operation.plan with
  | some existing =>
    if existing == plan then (.ok (), operation) else (.error .conflictingReplay, operation)
  | none =>
    if operation.stage != .planning then (.error .invalidStage, operation)
    else
      match plan.mode with
      | .answer =>
        match plan.directAnswer.filter (validBoundedText · maximumDirectAnswerBytes) with
        | none => (.error .invalidOutcome, operation)
        | some answer =>
          if !plan.delegations.isEmpty then (.error .invalidOutcome, operation)
          else
            (.ok (), { operation with
              pendingFinalAnswer := some answer, stage := .synthesizing, plan := some plan })
      | .delegate =>
        if plan.directAnswer.isSome ||
            !(1 ≤ plan.delegations.length && plan.delegations.length ≤ maximumWorkers) then
          (.error .invalidOutcome, operation)
        else
          match delegationStates operation.ids plan.delegations 0 [] with
          | .error e => (.error e, operation)
          | .ok states =>
            (.ok (), { operation with
              delegations := states, stage := .delegating, plan := some plan })

/-- Take the outcome of a worker. The last one leads on to the answer. -/
def recordWorkerOutcome (targetParticipantId : String) (outcome : WorkerOutcome)
    (operation : ConductorOperation) : Except ConductorOperationError Unit × ConductorOperation :=
  let isTarget (state : ConductorDelegationState) : Bool :=
    state.delegation.targetParticipantId == targetParticipantId
  match operation.delegations.find? isTarget with
  | none => (.error .unknownWorker, operation)
  | some state =>
    match state.outcome with
    | some existing =>
      if existing == outcome then (.ok (), operation) else (.error .conflictingReplay, operation)
    | none =>
      if operation.stage != .delegating || !validWorkerOutcome outcome then
        (.error .invalidOutcome, operation)
      else
        let delegations := modifyFirst isTarget
          (fun state => { state with outcome := some outcome }) operation.delegations
        if delegations.all fun delegation => delegation.outcome.isSome then
          (.ok (), { operation with delegations, stage := .synthesizing })
        else (.ok (), { operation with delegations })

/-- Take the answer that is made of the outcomes. -/
def recordSynthesis (answer : String) (operation : ConductorOperation) :
    Except ConductorOperationError Unit × ConductorOperation :=
  match operation.pendingFinalAnswer with
  | some existing =>
    if existing == answer then (.ok (), operation) else (.error .conflictingReplay, operation)
  | none =>
    if operation.stage != .synthesizing ||
        !operation.plan.any (fun plan => plan.mode == .delegate) ||
        !validBoundedText answer maximumResultTextBytes then
      (.error .invalidOutcome, operation)
    else (.ok (), { operation with pendingFinalAnswer := some answer })

/-- The final message is saved, with which the operation is over. -/
def markFinalSaved (operation : ConductorOperation) :
    Except ConductorOperationError Unit × ConductorOperation :=
  match operation.stage with
  | .synthesizing =>
    if operation.pendingFinalAnswer.isSome then (.ok (), { operation with stage := .completed })
    else (.error .invalidStage, operation)
  | .completed => (.ok (), operation)
  | _ => (.error .invalidStage, operation)

/-- The stages that an operation ends in. -/
def ConductorOperationStage.isTerminal : ConductorOperationStage → Bool
  | .completed | .failed | .unknown => true
  | _ => false

/-- The end of an operation that did not complete: with `stage`, unless it has ended otherwise. -/
def markEnded (stage : ConductorOperationStage) (operation : ConductorOperation) :
    Except ConductorOperationError Unit × ConductorOperation :=
  if operation.stage.isTerminal then
    if operation.stage == stage then (.ok (), operation) else (.error .invalidStage, operation)
  else (.ok (), { operation with stage })

/-- The operation has failed. -/
def markFailed : ConductorOperation → Except ConductorOperationError Unit × ConductorOperation :=
  markEnded .failed

/-- What became of the operation is not known. -/
def markExternalUnknown :
    ConductorOperation → Except ConductorOperationError Unit × ConductorOperation :=
  markEnded .unknown

/-! ## Runs -/

/-- A call, with its arguments. -/
inductive ConductorCall where
  | beginPlanning
  | acceptPlan (plan : ConductorPlanV1)
  | recordWorkerOutcome (targetParticipantId : String) (outcome : WorkerOutcome)
  | recordSynthesis (answer : String)
  | markFinalSaved
  | markFailed
  | markExternalUnknown

/-- What a call returns, and the operation that it leaves. -/
def ConductorCall.apply (operation : ConductorOperation) :
    ConductorCall → Except ConductorOperationError Unit × ConductorOperation
  | .beginPlanning => Conductor.beginPlanning operation
  | .acceptPlan plan => Conductor.acceptPlan plan operation
  | .recordWorkerOutcome targetParticipantId outcome =>
    Conductor.recordWorkerOutcome targetParticipantId outcome operation
  | .recordSynthesis answer => Conductor.recordSynthesis answer operation
  | .markFinalSaved => Conductor.markFinalSaved operation
  | .markFailed => Conductor.markFailed operation
  | .markExternalUnknown => Conductor.markExternalUnknown operation

/-- The operation that a run of calls leaves. -/
def ConductorCall.run (calls : List ConductorCall) (operation : ConductorOperation) :
    ConductorOperation :=
  calls.foldl (fun operation call => (call.apply operation).2) operation

example :
    stableIdentifier "conductor-final-v1" [] =
      "conductor-final-v1-cbf29ce48422232584222325cbf29ce4" := by decide

end Mio.Core.Conductor
