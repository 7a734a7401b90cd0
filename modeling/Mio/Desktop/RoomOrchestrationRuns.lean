import Mio.Desktop.RoomOrchestrationFile

/-!
# Runs of the orchestration ledger

A run is a sequence of operations and restarts, each under a schedule of failures and cuts.
`LedgerStep` says what an operation can do to the records, and `LedgerCall.ends` that it does so or
changes nothing, together with the file. `RecordChange` says what an event can do to the record of
one operation. From these follow the laws of a run (`orchestration_laws`): as long as a record
stays, it moves along the edges of `StageEdge`, which never lead back and leave the terminal stages
and `unknown` alone.
-/

namespace Mio.Desktop.RoomOrchestrationLedger

open Library Core.Conductor Std

/-! ## Calls and events -/

/-- A call of an operation that can change the records, with its arguments. -/
inductive LedgerCall where
  | begin (roomId sourceMessageId conductorId updatedAt : String)
  | markPlanning (operationId updatedAt : String)
  | markDelegating (operationId conductorSessionId : String)
    (delegations : List OrchestrationDelegationLink) (updatedAt : String)
  | markSynthesizing (operationId updatedAt : String)
  | markCompleted (operationId updatedAt : String)
  | markFailed (operationId updatedAt : String)
  | markUnknown (operationId updatedAt : String)

/-- What can happen: a call, or a new process, each under some schedule of faults. -/
inductive Event where
  | call (call : LedgerCall) (faults : List Fault)
  | restart (pid : ℕ) (faults : List Fault)

/-- The ledger, and whether its process is running. The records of a process that has stopped are
those that it had before its last call. -/
structure State where
  ledger : DesktopRoomOrchestrationLedger
  running : Bool

/-- The record of an operation. -/
def State.record (state : State) (operationId : String) : Option RoomOrchestrationRecord :=
  state.ledger.records[operationId]?

section Code

variable (serde : Serde PersistedFile)

/-- The call on the ledger. What a begin returns besides is left out. -/
def LedgerCall.run (faults : List Fault) (ledger : DesktopRoomOrchestrationLedger) :
    LedgerCall → Outcome RoomOrchestrationLedgerError Unit × DesktopRoomOrchestrationLedger
  | begin roomId sourceMessageId conductorId updatedAt =>
    match RoomOrchestrationLedger.begin serde faults roomId sourceMessageId conductorId updatedAt
        ledger with
    | (.done _, ledger) => (.done (), ledger)
    | (.error e, ledger) => (.error e, ledger)
    | (.cut, ledger) => (.cut, ledger)
  | markPlanning operationId updatedAt =>
    RoomOrchestrationLedger.markPlanning serde faults operationId updatedAt ledger
  | markDelegating operationId conductorSessionId delegations updatedAt =>
    RoomOrchestrationLedger.markDelegating serde faults operationId conductorSessionId delegations
      updatedAt ledger
  | markSynthesizing operationId updatedAt =>
    RoomOrchestrationLedger.markSynthesizing serde faults operationId updatedAt ledger
  | markCompleted operationId updatedAt =>
    RoomOrchestrationLedger.markCompleted serde faults operationId updatedAt ledger
  | markFailed operationId updatedAt =>
    RoomOrchestrationLedger.markFailed serde faults operationId updatedAt ledger
  | markUnknown operationId updatedAt =>
    RoomOrchestrationLedger.markUnknown serde faults operationId updatedAt ledger

/-- What an event leaves. A process stops where it is cut off, and where its start fails. -/
def apply (state : State) : Event → State
  | .call call faults =>
    if state.running then
      match call.run serde faults state.ledger with
      | (.cut, ledger) => { ledger, running := false }
      | (_, ledger) => { ledger, running := true }
    else state
  | .restart pid faults =>
    match (persistent serde).run faults (state.ledger.world.restart pid) with
    | (.done records, world) => { ledger := { records, world }, running := true }
    | (_, world) => { ledger := { state.ledger with world }, running := false }

/-- What a run of events leaves. -/
def run (events : List Event) (state : State) : State := events.foldl (apply serde) state

/-- Before the first start, in a directory without any file of the ledger. -/
def State.first (world : World) : State := { ledger := { records := ∅, world }, running := false }

end Code

/-! ## What a call does -/

/-- The stages that follow a stage. -/
inductive StageEdge : ConductorOperationStage → ConductorOperationStage → Prop
  | plan : StageEdge .prepared .planning
  | delegate : StageEdge .planning .delegating
  | answer : StageEdge .planning .synthesizing
  | synthesize : StageEdge .delegating .synthesizing
  | complete : StageEdge .synthesizing .completed
  | fail {stage : ConductorOperationStage}
    (h : stage ∈ [.prepared, .planning, .delegating, .synthesizing]) : StageEdge stage .failed
  | lose {stage : ConductorOperationStage} (h : stage ∈ [.planning, .synthesizing]) :
    StageEdge stage .unknown

/-- A mark's operation, the stages it expects, the stage it moves a record to, and the time. -/
def LedgerCall.mark :
    LedgerCall → Option (String × List ConductorOperationStage × ConductorOperationStage × String)
  | begin .. => none
  | markPlanning operationId updatedAt => some (operationId, [.prepared], .planning, updatedAt)
  | markDelegating operationId _ _ updatedAt =>
    some (operationId, [.planning], .delegating, updatedAt)
  | markSynthesizing operationId updatedAt =>
    some (operationId, [.planning, .delegating], .synthesizing, updatedAt)
  | markCompleted operationId updatedAt =>
    some (operationId, [.synthesizing], .completed, updatedAt)
  | markFailed operationId updatedAt =>
    some (operationId, [.prepared, .planning, .delegating, .synthesizing], .failed, updatedAt)
  | markUnknown operationId updatedAt =>
    some (operationId, [.planning, .synthesizing], .unknown, updatedAt)

/-- Whether a mark for the stage of a record repeats it: the arguments of the mark for the
delegations pass their checks and are those of the record, and those of every other mark pass
theirs. -/
def LedgerCall.repeats (record : RoomOrchestrationRecord) : LedgerCall → Bool
  | begin .. => false
  | markDelegating _ conductorSessionId delegations _ =>
    validSessionId conductorSessionId && 1 ≤ delegations.length &&
      delegations.length ≤ maximumWorkers &&
      record.conductorSessionId == some conductorSessionId && record.delegations == delegations
  | markPlanning operationId updatedAt | markSynthesizing operationId updatedAt
  | markCompleted operationId updatedAt | markFailed operationId updatedAt
  | markUnknown operationId updatedAt => validIdentifier operationId && validTimestamp updatedAt

/-- What a call can do to the records. -/
inductive LedgerStep (records : Records) : LedgerCall → Records → Prop
  /-- A begin puts in a new record, for which an old one may be removed. -/
  | reserve (roomId sourceMessageId conductorId updatedAt : String)
    (record : RoomOrchestrationRecord) (hfresh : records[record.operationId]? = none)
    (hstage : record.stage = .prepared) (hsession : record.conductorSessionId = none)
    (hdelegations : record.delegations = []) :
    LedgerStep records (.begin roomId sourceMessageId conductorId updatedAt)
      ((pruneTerminalRecord records).insert record.operationId record)
  /-- A mark moves a record along an edge. -/
  | move (call : LedgerCall) (operationId : String) (current : RoomOrchestrationRecord)
    (stage : ConductorOperationStage) (updatedAt : String)
    (hcurrent : records[operationId]? = some current) (hedge : StageEdge current.stage stage)
    (hstage : stage ≠ .delegating) :
    LedgerStep records call (records.insert operationId { current with stage, updatedAt })
  /-- The mark for the delegations sets them on the way. -/
  | delegate (operationId conductorSessionId : String)
    (delegations : List OrchestrationDelegationLink) (updatedAt : String)
    (current : RoomOrchestrationRecord) (hcurrent : records[operationId]? = some current)
    (hstage : current.stage = .planning) :
    LedgerStep records (.markDelegating operationId conductorSessionId delegations updatedAt)
      (records.insert operationId
        { current with
          conductorSessionId := some conductorSessionId
          delegations
          stage := .delegating
          updatedAt })

/-- How a call ends: it changes the records and the file together, or it changes neither. -/
inductive CallEnds (serde : Serde PersistedFile) (call : LedgerCall) (records : Records) :
    Outcome RoomOrchestrationLedgerError Unit × DesktopRoomOrchestrationLedger → Prop
  | kept (outcome : Outcome RoomOrchestrationLedgerError Unit) (world : World)
    (hfile : FileHolds serde records world.dir) :
    CallEnds serde call records (outcome, { records, world })
  | stepped (next : Records) (world : World) (hstep : LedgerStep records call next)
    (hfile : FileHolds serde next world.dir) :
    CallEnds serde call records (.done (), { records := next, world })

section Calls

variable {serde : Serde PersistedFile} {faults : List Fault}
    {ledger : DesktopRoomOrchestrationLedger}

/-- A commit takes the step whose records it persists, or it changes nothing. -/
theorem commit_ends (hserde : serde.RoundTrips)
    (hfile : FileHolds serde ledger.records ledger.world.dir) {call : LedgerCall} {next : Records}
    (hstep : LedgerStep ledger.records call next) (hvalid : ValidRecords next) :
    CallEnds serde call ledger.records (commit serde faults next ledger) := by
  have hends := Prog.run_wp _ faults ledger.world (persist_wp serde next ledger.world)
  rw [commit]
  rcases hrun : (persist serde next).run faults ledger.world with ⟨_ | _ | _, world⟩
  all_goals rw [hrun] at hends
  · exact .stepped next world hstep (.saved hserde hvalid hends)
  · exact .kept _ world (hfile.kept hends)
  · exact .kept _ world (hfile.kept hends)

/-- An existing record can be replaced by a valid one. -/
theorem ValidRecords.replace {records : Records} (h : ValidRecords records) {operationId : String}
    {current record : RoomOrchestrationRecord} (hcurrent : records[operationId]? = some current)
    (hid : record.operationId = current.operationId) (hvalid : validateRecord record = .ok ()) :
    ValidRecords (records.insert operationId record) := by
  refine ValidMap.insert h ⟨?_, hvalid⟩ (.inl ?_)
  · rw [hid]
    exact (h.entries operationId current hcurrent).1
  · simp [ExtTreeMap.contains_eq_isSome_getElem?, hcurrent]

/-- A mark moves its record along an edge, or it changes nothing. -/
theorem transition_ends (hserde : serde.RoundTrips)
    (hfile : FileHolds serde ledger.records ledger.world.dir) (call : LedgerCall)
    (operationId updatedAt : String) {expected : List ConductorOperationStage}
    {nextStage : ConductorOperationStage} (hedge : ∀ stage ∈ expected, StageEdge stage nextStage)
    (hnext : nextStage ≠ .delegating) :
    CallEnds serde call ledger.records
      (transition serde faults operationId expected nextStage updatedAt ledger) := by
  have hkept : ∀ outcome, CallEnds serde call ledger.records (outcome, ledger) :=
    fun outcome => .kept outcome ledger.world hfile
  unfold transition
  split
  · exact hkept _
  rename_i harguments
  split
  · exact hkept _
  rename_i current hcurrent
  split
  · exact hkept _
  split
  · exact hkept _
  rename_i hexpected
  simp only [Bool.or_eq_true, not_or, Bool.not_eq_true', Bool.not_eq_false] at harguments
  have hvalid := (hfile.valid.entries operationId current hcurrent).2
  refine commit_ends hserde hfile
    (.move call operationId current nextStage updatedAt hcurrent (hedge _ ?_) hnext) ?_
  · simpa using hexpected
  · exact hfile.valid.replace hcurrent rfl (validateRecord_move hvalid nextStage harguments.2)

/-- A begin puts in a new record, or it changes nothing. -/
theorem begin_ends (hserde : serde.RoundTrips)
    (hfile : FileHolds serde ledger.records ledger.world.dir)
    (roomId sourceMessageId conductorId updatedAt : String) :
    CallEnds serde (.begin roomId sourceMessageId conductorId updatedAt) ledger.records
      ((LedgerCall.begin roomId sourceMessageId conductorId updatedAt).run
        serde faults ledger) := by
  -- Every refusal leaves the ledger as it is.
  have hkept : ∀ outcome, CallEnds serde (.begin roomId sourceMessageId conductorId updatedAt)
      ledger.records (outcome, ledger) := fun outcome => .kept outcome ledger.world hfile
  simp only [LedgerCall.run, RoomOrchestrationLedger.begin]
  rcases ConductorOperationIds.derive sourceMessageId conductorId with e | ids
  · exact hkept _
  dsimp only
  generalize hrecord : preparedRecord ids roomId sourceMessageId conductorId updatedAt = record
  rcases hvalid : validateRecord record with e | _
  · exact hkept _
  dsimp only
  rcases hexisting : ledger.records[record.operationId]? with _ | existing
  · dsimp only
    -- The source prunes first, and then looks for room.
    by_cases hfull : maximumRecords ≤ (pruneTerminalRecord ledger.records).size
    · rw [if_pos hfull]
      exact hkept _
    rw [if_neg hfull]
    have hpruned : ValidRecords (pruneTerminalRecord ledger.records) :=
      hfile.valid.prune hfile.valid.key
    have hnext : ValidRecords
        ((pruneTerminalRecord ledger.records).insert record.operationId record) :=
      ValidMap.insert hpruned ⟨rfl, hvalid⟩ (.inr (by omega))
    have hstep : LedgerStep ledger.records (.begin roomId sourceMessageId conductorId updatedAt)
        ((pruneTerminalRecord ledger.records).insert record.operationId record) := by
      refine .reserve _ _ _ _ record hexisting ?_ ?_ ?_ <;> rw [← hrecord] <;> rfl
    have hends := @commit_ends serde faults ledger hserde hfile _ _ hstep hnext
    rcases hcommit : commit serde faults
      ((pruneTerminalRecord ledger.records).insert record.operationId record) ledger with
      ⟨_ | _ | _, after⟩
    all_goals
      rw [hcommit] at hends
      exact hends
  · dsimp only
    -- A record that is there answers a repeated begin, and refuses any other.
    by_cases hsame : sameIdentity existing record = true
    · rw [if_pos hsame]
      exact hkept _
    · rw [if_neg hsame]
      exact hkept _

/-- The mark for the delegations sets them, or it changes nothing. -/
theorem markDelegating_ends (hserde : serde.RoundTrips)
    (hfile : FileHolds serde ledger.records ledger.world.dir) (operationId sessionId : String)
    (delegations : List OrchestrationDelegationLink) (updatedAt : String) :
    CallEnds serde (.markDelegating operationId sessionId delegations updatedAt) ledger.records
      (markDelegating serde faults operationId sessionId delegations updatedAt ledger) := by
  have hkept : ∀ outcome,
      CallEnds serde (.markDelegating operationId sessionId delegations updatedAt) ledger.records
        (outcome, ledger) := fun outcome => .kept outcome ledger.world hfile
  unfold markDelegating
  -- The guards, in the order of the source; a repeated mark is an answer of its own.
  split
  · exact hkept _
  rename_i harguments
  split
  · exact hkept _
  rename_i current hcurrent
  split
  · split
    · exact hkept _
    · exact hkept _
  split
  · exact hkept _
  rename_i hplanning
  split
  · exact hkept _
  rename_i hdelegations
  simp only [Bool.or_eq_true, not_or, Bool.not_eq_true', Bool.not_eq_false, bne_iff_ne, ne_eq,
    not_not, decide_eq_true_eq, Nat.not_lt] at harguments hplanning
  -- The record was valid and gets valid delegations, so it is valid.
  have hvalid := (hfile.valid.entries operationId current hcurrent).2
  refine commit_ends hserde hfile
    (.delegate operationId sessionId delegations updatedAt current hcurrent hplanning.1) ?_
  exact hfile.valid.replace hcurrent rfl
    (validateRecord_delegate hvalid harguments.1.1 harguments.2
      hdelegations hplanning.2 .delegating)

/-- Every call changes the records and the file together, or it changes neither. -/
theorem LedgerCall.ends (hserde : serde.RoundTrips)
    (hfile : FileHolds serde ledger.records ledger.world.dir) (call : LedgerCall) :
    CallEnds serde call ledger.records (call.run serde faults ledger) := by
  cases call with
  | begin roomId sourceMessageId conductorId updatedAt =>
    exact begin_ends hserde hfile roomId sourceMessageId conductorId updatedAt
  | markPlanning operationId updatedAt =>
    exact transition_ends hserde hfile _ operationId updatedAt
      (by simpa using StageEdge.plan) (by simp)
  | markDelegating operationId sessionId delegations updatedAt =>
    exact markDelegating_ends hserde hfile operationId sessionId delegations updatedAt
  | markSynthesizing operationId updatedAt =>
    exact transition_ends hserde hfile _ operationId updatedAt
      (by simpa using ⟨StageEdge.answer, StageEdge.synthesize⟩) (by simp)
  | markCompleted operationId updatedAt =>
    exact transition_ends hserde hfile _ operationId updatedAt
      (by simpa using StageEdge.complete) (by simp)
  | markFailed operationId updatedAt =>
    exact transition_ends hserde hfile _ operationId updatedAt
      (fun stage hstage => .fail hstage) (by simp)
  | markUnknown operationId updatedAt =>
    exact transition_ends hserde hfile _ operationId updatedAt
      (fun stage hstage => .lose hstage) (by simp)

/-- What a mark answers where it moves no record, with the ledger as it was: `Ok` to a mark that
repeats what the record has, and otherwise an error. -/
structure MarkAnswers (serde : Serde PersistedFile) (faults : List Fault)
    (ledger : DesktopRoomOrchestrationLedger) (call : LedgerCall) (operationId : String)
    (expected : List ConductorOperationStage) (nextStage : ConductorOperationStage) : Prop where
  repeated : ∀ record, ledger.records[operationId]? = some record → record.stage = nextStage →
    call.repeats record = true → call.run serde faults ledger = (.done (), ledger)
  different : ∀ record, ledger.records[operationId]? = some record → record.stage = nextStage →
    call.repeats record = false → ∃ e, call.run serde faults ledger = (.error e, ledger)
  outOfOrder : (∀ record, ledger.records[operationId]? = some record →
      record.stage ≠ nextStage ∧ record.stage ∉ expected) →
    ∃ e, call.run serde faults ledger = (.error e, ledger)

/-- A transition answers so. -/
theorem transition_answers {call : LedgerCall} {operationId updatedAt : String}
    {expected : List ConductorOperationStage} {nextStage : ConductorOperationStage}
    (hrun : call.run serde faults ledger =
      transition serde faults operationId expected nextStage updatedAt ledger)
    (hrepeats : ∀ record, call.repeats record =
      (validIdentifier operationId && validTimestamp updatedAt)) :
    MarkAnswers serde faults ledger call operationId expected nextStage := by
  have hguard : ∀ b, (validIdentifier operationId && validTimestamp updatedAt) = b →
      (!validIdentifier operationId || !validTimestamp updatedAt) = !b := by
    rintro _ rfl
    exact (Bool.not_and _ _).symm
  refine ⟨fun record hrecord hstage harguments => ?_, fun record hrecord hstage harguments => ?_,
    fun hother => ?_⟩
  · rw [hrepeats] at harguments
    rw [hrun, transition, hguard _ harguments]
    simp [hrecord, hstage]
  · rw [hrepeats] at harguments
    rw [hrun, transition, hguard _ harguments]
    exact ⟨_, rfl⟩
  · rw [hrun, transition]
    split
    · exact ⟨_, rfl⟩
    split
    · exact ⟨_, rfl⟩
    rename_i record hrecord
    obtain ⟨hstage, hexpected⟩ := hother record hrecord
    rw [if_neg (by simpa using hstage), if_pos (by simpa using hexpected)]
    exact ⟨_, rfl⟩

/-- So does the mark for the delegations. -/
theorem markDelegating_answers (operationId sessionId : String)
    (delegations : List OrchestrationDelegationLink) (updatedAt : String) :
    MarkAnswers serde faults ledger (.markDelegating operationId sessionId delegations updatedAt)
      operationId [.planning] .delegating := by
  have hrun : (LedgerCall.markDelegating operationId sessionId delegations updatedAt).run serde
      faults ledger =
        markDelegating serde faults operationId sessionId delegations updatedAt ledger := rfl
  -- By what the record says: it repeats the mark, it is another mark, or it is in another stage.
  refine ⟨fun record hrecord hstage hrepeats => ?_, fun record hrecord hstage hrepeats => ?_,
    fun hother => ?_⟩
  · simp only [LedgerCall.repeats, Bool.and_eq_true, decide_eq_true_eq] at hrepeats
    obtain ⟨⟨⟨⟨hsession, hone⟩, hthree⟩, hsame⟩, hlinks⟩ := hrepeats
    have hguard : (!validSessionId sessionId || decide (delegations.length < 1) ||
        decide (maximumWorkers < delegations.length)) = false := by
      simp only [hsession, Bool.not_true, Bool.false_or, Bool.or_eq_false_iff,
        decide_eq_false_iff_not]
      omega
    rw [hrun, markDelegating, hguard]
    simp [hrecord, hstage, hsame, hlinks]
  · rw [hrun, markDelegating]
    split
    · exact ⟨_, rfl⟩
    rename_i harguments
    -- The arguments are valid, so a mark that is no repetition differs in what it writes.
    have hdifferent : (record.conductorSessionId == some sessionId &&
        record.delegations == delegations) = false := by
      by_contra hsame
      simp only [Bool.not_eq_false, Bool.and_eq_true] at hsame
      simp only [Bool.or_eq_true, not_or, Bool.not_eq_true', Bool.not_eq_false,
        decide_eq_true_eq] at harguments
      have hone : 1 ≤ delegations.length := by omega
      have hthree : delegations.length ≤ maximumWorkers := by omega
      simp [LedgerCall.repeats, harguments.1.1, hone, hthree, hsame] at hrepeats
    simp [hrecord, hstage, hdifferent]
  · rw [hrun, markDelegating]
    split
    · exact ⟨_, rfl⟩
    split
    · exact ⟨_, rfl⟩
    rename_i record hrecord
    obtain ⟨hstage, hexpected⟩ := hother record hrecord
    have hplanning : record.stage ≠ .planning := by simpa using hexpected
    simp [hstage, hplanning]

/-- Every mark does. -/
theorem LedgerCall.answers (call : LedgerCall) {operationId updatedAt : String}
    {expected : List ConductorOperationStage} {nextStage : ConductorOperationStage}
    (hmark : call.mark = some (operationId, expected, nextStage, updatedAt)) :
    MarkAnswers serde faults ledger call operationId expected nextStage := by
  cases call with
  | begin => cases hmark
  | markDelegating _ sessionId delegations _ =>
    cases hmark
    exact markDelegating_answers operationId sessionId delegations updatedAt
  | markPlanning | markSynthesizing | markCompleted | markFailed | markUnknown =>
    cases hmark
    exact transition_answers rfl fun _ => rfl

end Calls

/-! ## What an event does to one record -/

/-- What an event can do to the record of one operation. -/
inductive RecordChange : Option RoomOrchestrationRecord → Option RoomOrchestrationRecord → Prop
  | same (record : Option RoomOrchestrationRecord) : RecordChange record record
  | reserved (record : RoomOrchestrationRecord) (hstage : record.stage = .prepared)
    (hsession : record.conductorSessionId = none) (hdelegations : record.delegations = []) :
    RecordChange none (some record)
  | pruned (record : RoomOrchestrationRecord) (hprunable : isPrunable record = true) :
    RecordChange (some record) none
  | moved (record : RoomOrchestrationRecord) (stage : ConductorOperationStage) (updatedAt : String)
    (hedge : StageEdge record.stage stage) (hstage : stage ≠ .delegating) :
    RecordChange (some record) (some { record with stage, updatedAt })
  | delegated (record : RoomOrchestrationRecord) (conductorSessionId : String)
    (delegations : List OrchestrationDelegationLink) (updatedAt : String)
    (hstage : record.stage = .planning) :
    RecordChange (some record)
      (some { record with
        conductorSessionId := some conductorSessionId
        delegations
        stage := .delegating
        updatedAt })

/-- A step changes the record of its operation, and may prune another. -/
theorem LedgerStep.change {records next : Records} {call : LedgerCall}
    (h : LedgerStep records call next) (hvalid : ValidRecords records) (id : String) :
    RecordChange records[id]? next[id]? := by
  cases h with
  | reserve roomId sourceMessageId conductorId updatedAt record
    hfresh hstage hsession hdelegations =>
    -- Either this is the record that comes, or it is kept or pruned.
    rw [ExtTreeMap.getElem?_insert]
    split
    · rename_i heq
      obtain rfl := LawfulEqCmp.eq_of_compare heq
      rw [hfresh]
      exact .reserved record hstage hsession hdelegations
    rcases pruneOldest_cases maximumRecords olderThan isPrunable hvalid.key with
      heq | ⟨oldest, old, hold, hprunable, heq⟩
    · rw [pruneTerminalRecord, heq]
      exact .same _
    · rw [pruneTerminalRecord, heq, ExtTreeMap.getElem?_erase]
      split
      · rename_i hid
        obtain rfl := LawfulEqCmp.eq_of_compare hid
        rw [hold]
        exact .pruned old hprunable
      · exact .same _
  | move call operationId current stage updatedAt hcurrent hedge hstage =>
    rw [ExtTreeMap.getElem?_insert]
    split
    · rename_i heq
      obtain rfl := LawfulEqCmp.eq_of_compare heq
      rw [hcurrent]
      exact .moved current stage updatedAt hedge hstage
    · exact .same _
  | delegate operationId sessionId delegations updatedAt current hcurrent hstage =>
    rw [ExtTreeMap.getElem?_insert]
    split
    · rename_i heq
      obtain rfl := LawfulEqCmp.eq_of_compare heq
      rw [hcurrent]
      exact .delegated current sessionId delegations updatedAt hstage
    · exact .same _

/-- The rewriting of a load moves a record to `unknown`, or leaves it. -/
theorem RecordChange.rewrite (record : Option RoomOrchestrationRecord) :
    RecordChange record (record.map rewriteRecord) := by
  rcases record with _ | record
  · exact .same none
  by_cases hrewritten : isRewritten record = true
  · have hunknown : rewriteRecord record = { record with stage := .unknown } := if_pos hrewritten
    have hstage : record.stage ∈ [.planning, .synthesizing] := by
      simpa [isRewritten] using hrewritten
    rw [Option.map_some, hunknown]
    exact .moved record .unknown record.updatedAt (.lose hstage) (by simp)
  · have hsame : rewriteRecord record = record := if_neg hrewritten
    rw [Option.map_some, hsame]
    exact .same _

/-- A record that is there before and after has moved along an edge, or it is the same. -/
theorem RecordChange.forward {record record' : RoomOrchestrationRecord}
    (h : RecordChange (some record) (some record')) :
    record' = record ∨ StageEdge record.stage record'.stage := by
  cases h with
  | same => exact .inl rfl
  | moved _ stage updatedAt hedge _ => exact .inr hedge
  | delegated _ sessionId delegations updatedAt hstage =>
    right
    rw [hstage]
    exact .delegate

/-- The session and the delegations change at the move to the delegations alone. -/
theorem RecordChange.links {record record' : RoomOrchestrationRecord}
    (h : RecordChange (some record) (some record')) :
    record'.conductorSessionId = record.conductorSessionId ∧
        record'.delegations = record.delegations ∨
      record.stage = .planning ∧ record'.stage = .delegating := by
  cases h with
  | same | moved => exact .inl ⟨rfl, rfl⟩
  | delegated _ sessionId delegations updatedAt hstage => exact .inr ⟨hstage, rfl⟩

/-- The final stages have no edge that leaves them. -/
def isFinal (stage : ConductorOperationStage) : Bool :=
  stage == .completed || stage == .failed || stage == .unknown

/-- No stage follows a final one. -/
theorem StageEdge.not_isFinal {stage next : ConductorOperationStage} (h : StageEdge stage next) :
    isFinal stage = false := by
  cases h with
  | plan | delegate | answer | synthesize | complete => rfl
  | fail hstage | lose hstage =>
    revert hstage
    cases stage <;> decide

/-- No edge leads back to `planning` from a stage after it. -/
theorem StageEdge.prepared_of_planning {stage : ConductorOperationStage}
    (h : StageEdge stage .planning) : stage = .prepared := by
  cases h with
  | plan => rfl

/-- No edge leads to `prepared`. -/
theorem StageEdge.ne_prepared {stage next : ConductorOperationStage} (h : StageEdge stage next) :
    next ≠ .prepared := by
  cases h <;> simp

/-! ## Runs -/

section Runs

variable {serde : Serde PersistedFile} {state : State}

/-- One event keeps the file and the records together, and changes a record as it may. -/
theorem apply_change (hserde : serde.RoundTrips)
    (hfile : FileHolds serde state.ledger.records state.ledger.world.dir) (event : Event) :
    FileHolds serde (apply serde state event).ledger.records
        (apply serde state event).ledger.world.dir ∧
      ∀ id, RecordChange (state.record id) ((apply serde state event).record id) := by
  cases event with
  | call call faults =>
    rw [RoomOrchestrationLedger.apply]
    split
    · have hends := @LedgerCall.ends serde faults _ hserde hfile call
      rcases hrun : call.run serde faults state.ledger with ⟨outcome, ledger⟩
      rw [hrun] at hends
      cases hends with
      | kept _ world hfile' => cases outcome <;> exact ⟨hfile', fun id => .same _⟩
      | stepped next world hstep hfile' => exact ⟨hfile', hstep.change hfile.valid⟩
    · exact ⟨hfile, fun id => .same _⟩
  | restart pid faults =>
    have hends := Prog.run_wp (persistent serde) faults (state.ledger.world.restart pid)
      (persistent_wp (w := state.ledger.world.restart pid) hserde hfile)
    rw [RoomOrchestrationLedger.apply]
    rcases hrun : (persistent serde).run faults (state.ledger.world.restart pid) with
      ⟨_ | _ | _, world⟩
    all_goals rw [hrun] at hends
    · obtain ⟨rfl, hfile'⟩ := hends
      refine ⟨hfile', fun id => ?_⟩
      simp only [State.record, getElem?_rewriteRecords]
      exact .rewrite _
    · exact ⟨hends, fun id => .same _⟩
    · exact ⟨hends, fun id => .same _⟩

/-- A run of events keeps the file and the records together. -/
theorem run_fileHolds (hserde : serde.RoundTrips)
    (hfile : FileHolds serde state.ledger.records state.ledger.world.dir) (events : List Event) :
    FileHolds serde (run serde events state).ledger.records
      (run serde events state).ledger.world.dir := by
  induction events generalizing state with
  | nil => exact hfile
  | cons event events ih => exact ih (apply_change hserde hfile event).1

variable (serde) in
/-- The record stays in the ledger all through the run. -/
def Stays (id : String) : List Event → State → Prop
  | [], state => (state.record id).isSome
  | event :: events, state => (state.record id).isSome ∧ Stays id events (apply serde state event)

/-- Whether the record of an operation is at `planning`. -/
def State.planning (state : State) (id : String) : Bool :=
  (state.record id).any (·.stage == .planning)

variable (serde) in
/-- How many events of a run take the record to `planning`. -/
def planningEntries (id : String) : List Event → State → ℕ
  | [], _ => 0
  | event :: events, state =>
    let next := apply serde state event
    (if !state.planning id && next.planning id then 1 else 0) + planningEntries id events next

/-- What holds of the record of one operation between the ends of a run in which it stays. -/
structure RecordLaws (record record' : RoomOrchestrationRecord) (entries : ℕ) : Prop where
  /-- It moves along the edges of the stage graph. -/
  forward : Relation.ReflTransGen StageEdge record.stage record'.stage
  /-- A final stage is never left, and the record is as it was. -/
  final : isFinal record.stage = true → record' = record
  /-- It enters `planning` at most once, and never from a later stage. -/
  planning : entries ≤ if record.stage = .prepared then 1 else 0
  /-- Past `planning` the session and the delegations stay as they are. -/
  links : record.stage ≠ .prepared → record.stage ≠ .planning →
    record'.conductorSessionId = record.conductorSessionId ∧
      record'.delegations = record.delegations

/-- Along a run in which the record stays, its laws hold. -/
theorem run_recordLaws (hserde : serde.RoundTrips)
    (hfile : FileHolds serde state.ledger.records state.ledger.world.dir) {id : String}
    {events : List Event} (hstays : Stays serde id events state) {record : RoomOrchestrationRecord}
    (hrecord : state.record id = some record) :
    ∃ record', (run serde events state).record id = some record' ∧
      RecordLaws record record' (planningEntries serde id events state) := by
  -- By induction on the events, of which each changes the record at most along one edge of the
  -- stages.
  induction events generalizing state record with
  | nil => exact ⟨record, hrecord, .refl, fun _ => rfl, Nat.zero_le _, fun _ _ => ⟨rfl, rfl⟩⟩
  | cons event events ih =>
    obtain ⟨-, htail⟩ := hstays
    obtain ⟨hfile', hchange⟩ := apply_change hserde hfile event
    have hpresent : ((apply serde state event).record id).isSome = true := by
      cases events with
      | nil => exact htail
      | cons _ _ => exact htail.1
    obtain ⟨next, hnext⟩ := Option.isSome_iff_exists.mp hpresent
    obtain ⟨last, hlast, hlaws⟩ := ih hfile' htail hnext
    have hstep : RecordChange (some record) (some next) := by
      rw [← hrecord, ← hnext]
      exact hchange id
    -- Planning is only entered from another stage.
    have hentry : (!state.planning id && (apply serde state event).planning id) = true →
        record.stage ≠ .planning ∧ next.stage = .planning := by
      simp [State.planning, hrecord, hnext]
    refine ⟨last, hlast, ?_, fun hfinal => ?_, ?_, fun hprepared hplanning => ?_⟩
    · rcases hstep.forward with rfl | hedge
      · exact hlaws.forward
      · exact .head hedge hlaws.forward
    · rcases hstep.forward with rfl | hedge
      · exact hlaws.final hfinal
      · simp [hedge.not_isFinal] at hfinal
    · have htail := hlaws.planning
      rw [planningEntries]
      rcases hstep.forward with rfl | hedge
      · have hno : ¬(!state.planning id && (apply serde state event).planning id) = true :=
          fun h => (hentry h).1 (hentry h).2
        rw [if_neg hno]
        omega
      · rw [if_neg hedge.ne_prepared] at htail
        split
        · rename_i hentered
          obtain ⟨-, hplanning⟩ := hentry hentered
          rw [hplanning] at hedge
          rw [if_pos hedge.prepared_of_planning]
          omega
        · omega
    · have hsame : next.conductorSessionId = record.conductorSessionId ∧
          next.delegations = record.delegations := by
        rcases hstep.links with hsame | ⟨h, -⟩
        · exact hsame
        · exact absurd h hplanning
      have hnext' : next.stage ≠ .prepared ∧ next.stage ≠ .planning := by
        rcases hstep.forward with rfl | hedge
        · exact ⟨hprepared, hplanning⟩
        · refine ⟨hedge.ne_prepared, fun h => hprepared ?_⟩
          rw [h] at hedge
          exact hedge.prepared_of_planning
      obtain ⟨hsession, hlinks⟩ := hlaws.links hnext'.1 hnext'.2
      exact ⟨hsession.trans hsame.1, hlinks.trans hsame.2⟩

variable (serde) in
/-- What holds of a ledger at every point of a run. -/
structure LedgerLaws (state : State) : Prop where
  /-- Every record is valid, under its own identifier and within the limit. -/
  valid : ValidRecords state.ledger.records
  /-- The next event puts in a record at `prepared`, prunes one that may be, or moves one. -/
  changes : ∀ event id, RecordChange (state.record id) ((apply serde state event).record id)
  /-- Only the move to the delegations sets the session and the delegations. -/
  links : ∀ event id record record', state.record id = some record →
    (apply serde state event).record id = some record' →
      record'.conductorSessionId = record.conductorSessionId ∧
          record'.delegations = record.delegations ∨
        record.stage = .planning ∧ record'.stage = .delegating
  /-- A mark that moves no record leaves the ledger and answers as it should. -/
  marks : ∀ faults (call : LedgerCall) operationId expected nextStage updatedAt,
    call.mark = some (operationId, expected, nextStage, updatedAt) →
      MarkAnswers serde faults state.ledger call operationId expected nextStage
  /-- A call that returns an error leaves the records, in memory and for every later load. -/
  errors : ∀ (call : LedgerCall) faults e ledger,
    call.run serde faults state.ledger = (.error e, ledger) →
      ledger.records = state.ledger.records ∧ ∀ pid,
        ((load serde).run [] (ledger.world.restart pid)).1 =
          ((load serde).run [] (state.ledger.world.restart pid)).1
  /-- A load of what a persist has written returns the records rewritten, and when these are
  persisted in turn, the same ones. -/
  loads : ∀ records ∈ [state.ledger.records, rewriteRecords state.ledger.records],
    ∀ faults w w', (persist serde records).run faults w = (.done (), w') → ∀ pid, ∃ normalized,
      (load serde).run [] (w'.restart pid) =
        (.done (rewriteRecords state.ledger.records, normalized), w'.restart pid)

/-- They do wherever the file and the records agree. -/
theorem ledgerLaws (hserde : serde.RoundTrips)
    (hfile : FileHolds serde state.ledger.records state.ledger.world.dir) :
    LedgerLaws serde state := by
  have hchanges : ∀ event id,
      RecordChange (state.record id) ((apply serde state event).record id) :=
    fun event => (apply_change hserde hfile event).2
  refine ⟨hfile.valid, hchanges, fun event id record record' hrecord hrecord' => ?_,
    fun faults call _ _ _ _ hmark => call.answers hmark, fun call faults e ledger hrun => ?_, ?_⟩
  · have hchange := hchanges event id
    rw [hrecord, hrecord'] at hchange
    exact hchange.links
  · have hends := @LedgerCall.ends serde faults _ hserde hfile call
    rw [hrun] at hends
    cases hends with
    | kept _ world hfile' =>
      refine ⟨rfl, fun pid => ?_⟩
      rw [load_run (w := world.restart pid) hfile',
        load_run (w := state.ledger.world.restart pid) hfile]
  · intro records hmem faults w w' hpersist pid
    have hvalid : ValidRecords records ∧
        rewriteRecords records = rewriteRecords state.ledger.records := by
      rcases List.mem_pair.mp hmem with rfl | rfl
      · exact ⟨hfile.valid, rfl⟩
      · exact ⟨hfile.valid.rewrite, rewriteRecords_idempotent _⟩
    have hends := Prog.run_wp _ faults w (persist_wp serde records w)
    rw [hpersist] at hends
    have hholds : FileHolds serde records w'.dir := .saved hserde hvalid.1 hends
    rw [load_run (w := w'.restart pid) hholds, hvalid.2]
    exact ⟨_, rfl⟩

/-- Without any file, a ledger without records holds what is in its file. -/
theorem fileHolds_first (serde : Serde PersistedFile) {world : World}
    (hp : world.dir .primary = none) (hb : world.dir .backup = none) :
    FileHolds serde (State.first world).ledger.records (State.first world).ledger.world.dir :=
  ⟨⟨.inl hp, .inl hb⟩, .empty _, .inl ⟨by simp [State.first, Directory.current, hp, hb], rfl⟩⟩

end Runs

/-- At every point of every run that begins without any file, the laws of the ledger hold, and as
long as a record stays from there on, the laws of its record do. -/
theorem orchestration_laws {serde : Serde PersistedFile} (hserde : serde.RoundTrips) {world : World}
    (hp : world.dir .primary = none) (hb : world.dir .backup = none) (before events : List Event) :
    let state := run serde before (.first world)
    LedgerLaws serde state ∧
      ∀ id record, state.record id = some record → Stays serde id events state →
        ∃ record', (run serde events state).record id = some record' ∧
          RecordLaws record record' (planningEntries serde id events state) := by
  intro state
  have hfile : FileHolds serde state.ledger.records state.ledger.world.dir :=
    run_fileHolds hserde (fileHolds_first serde hp hb) before
  exact ⟨ledgerLaws hserde hfile,
    fun id record hrecord hstays => run_recordLaws hserde hfile hstays hrecord⟩

namespace Sample

open Json

/-- The link of a delegation, written. -/
def linkText (link : OrchestrationDelegationLink) : String :=
  object [("targetParticipantId", string link.targetParticipantId),
    ("messageId", string link.messageId), ("dispatchId", string link.dispatchId)]

/-- A stage, written. -/
def stageText : ConductorOperationStage → String
  | .prepared => "prepared"
  | .planning => "planning"
  | .delegating => "delegating"
  | .synthesizing => "synthesizing"
  | .completed => "completed"
  | .failed => "failed"
  | .unknown => "unknown"

/-- A record, written. -/
def recordText (record : RoomOrchestrationRecord) : String :=
  object [("operationId", string record.operationId), ("roomId", string record.roomId),
    ("sourceMessageId", string record.sourceMessageId), ("conductorId", string record.conductorId),
    ("conductorSessionId", (record.conductorSessionId.map string).getD "null"),
    ("finalMessageId", string record.finalMessageId), ("stage", string (stageText record.stage)),
    ("delegations", array (record.delegations.map linkText)),
    ("updatedAt", string record.updatedAt)]

/-- The content of the file for records whose texts need no escapes. -/
def body (persisted : PersistedFile) : Bytes :=
  asBytes (object [("fileVersion", "1"), ("records", array (persisted.records.map recordText))])

/-- The delegation of the operation. -/
def link : OrchestrationDelegationLink where
  targetParticipantId := "claude"
  messageId := "conductor-delegation-v1-ac35c480cacfb1b1b49a58cd5197778e"
  dispatchId := "conductor-dispatch-v1-ac35c480cacfb1b1b49a58cd5197778e"

/-- The operation on one message, as it is begun. -/
def prepared : RoomOrchestrationRecord where
  operationId := "conductor-operation-v1-bb83242500f19d1f26ce5d97d5ec124d"
  roomId := "room-1"
  sourceMessageId := "m1"
  conductorId := "codex"
  conductorSessionId := none
  finalMessageId := "conductor-final-v1-f4d74b24d98886760dfd95836a4f6da8"
  stage := .prepared
  delegations := []
  updatedAt := "2026-08-13T00:00:00Z"

/-- The operation while its plan is made. -/
def planning : RoomOrchestrationRecord :=
  { prepared with stage := .planning, updatedAt := "2026-08-13T00:00:01Z" }

/-- The operation with its delegation. -/
def delegating : RoomOrchestrationRecord :=
  { planning with
    conductorSessionId := some "session-1"
    delegations := [link]
    stage := .delegating
    updatedAt := "2026-08-13T00:00:02Z" }

/-- The row of a table for the ledger with one record. -/
def row (record : RoomOrchestrationRecord) : PersistedFile × Bytes :=
  let persisted : PersistedFile := { fileVersion, records := [record] }
  (persisted, body persisted)

/-- The serializer for the ledger with that operation. -/
def serde : Serde PersistedFile := .table [row prepared, row planning, row delegating]

/-- The serializer reads back what it writes. -/
theorem serde_roundTrips : serde.RoundTrips :=
  Serde.table_roundTrips (by decide +kernel) (by decide +kernel)

/-- The operation is begun and its plan is asked for. -/
def events : List Event :=
  [.restart 7 [], .call (.begin "room-1" "m1" "codex" prepared.updatedAt) [],
    .call (.markPlanning prepared.operationId planning.updatedAt) []]

/-- The plan delegates. -/
def delegation : Event :=
  .call (.markDelegating prepared.operationId "session-1" [link] delegating.updatedAt) []

end Sample

open Sample in
/-- An operation that is begun and planned, and then gets its delegation. -/
theorem orchestration_laws_sample :
    let state := run serde events (.first (.empty 7))
    LedgerLaws serde state ∧
      ∀ id record, state.record id = some record → Stays serde id [delegation] state →
        ∃ record', (run serde [delegation] state).record id = some record' ∧
          RecordLaws record record' (planningEntries serde id [delegation] state) :=
  orchestration_laws serde_roundTrips rfl rfl events [delegation]

open Sample in
/-- A mark for the stage already reached is refused when its time is not one, and so is a mark for
the delegations with another session. -/
theorem repeated_mark_refused :
    let state := run serde events (.first (.empty 7))
    let after := apply serde state delegation
    state.record prepared.operationId = some planning ∧
      after.record prepared.operationId = some delegating ∧
      ((LedgerCall.markPlanning prepared.operationId "").run serde [] state.ledger).1 =
        .error .invalid ∧
      ((LedgerCall.markDelegating prepared.operationId "session-2" [link]
        delegating.updatedAt).run serde [] after.ledger).1 = .error .conflict := by
  decide +kernel

end Mio.Desktop.RoomOrchestrationLedger
