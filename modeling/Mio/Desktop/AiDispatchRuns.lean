import Mio.Desktop.AiDispatchLedger

/-!
# Runs of the dispatch ledger

A run is a sequence of calls and restarts, each call under a schedule of failures and cuts.
`LedgerStep` says what a call can do to the records, and `LedgerCall.ends` that it does so when it
has persisted them. In every run the records are valid and no active turn is over (`run_sound`), and
in one that does not lose the file, it holds the records (`apply_holds`), each of which stays until
it is pruned (`apply_record`).
-/

namespace Mio.Desktop.AiDispatchLedger

open Library Std

/-! ## Calls and events -/

/-- A call of an operation that can change the ledger, with its arguments. -/
inductive LedgerCall where
  | begin (record : AiDispatchRecord)
  | markExternalStarted (dispatchId updatedAt : String)
  | markFailed (dispatchId updatedAt : String)
  | markExternalPreflightFailed (dispatchId updatedAt : String)
  | markCompleted (dispatchId updatedAt : String)
  | finishUnknown (dispatchId : String)

/-- What can happen: a call under some schedule of faults, or a new process. -/
inductive Event where
  | call (call : LedgerCall) (faults : List Fault)
  | restart (pid : ℕ)

/-- The ledger, and whether its process is running. The data of a process that has stopped is what
it last had. -/
structure State where
  ledger : DesktopAiDispatchLedger
  running : Bool

/-- The record of a dispatch. -/
def State.record (state : State) (dispatchId : String) : Option AiDispatchRecord :=
  state.ledger.data.records[dispatchId]?

/-- What a call returns, as the answer of a `LedgerCall`. -/
def withAnswer {α β : Type} (f : α → β) :
    Outcome AiDispatchLedgerError α × DesktopAiDispatchLedger →
      Outcome AiDispatchLedgerError β × DesktopAiDispatchLedger
  | (.done a, ledger) => (.done (f a), ledger)
  | (.error e, ledger) => (.error e, ledger)
  | (.cut, ledger) => (.cut, ledger)

section Code

variable (serde : Serde PersistedDispatchLedger)

/-- The call on the ledger. Only a begin has an answer besides that it has returned. -/
def LedgerCall.run (faults : List Fault) (ledger : DesktopAiDispatchLedger) :
    LedgerCall →
      Outcome AiDispatchLedgerError (Option AiDispatchBegin) × DesktopAiDispatchLedger
  | begin record => withAnswer some (AiDispatchLedger.begin serde faults record ledger)
  | markExternalStarted dispatchId updatedAt =>
    withAnswer (fun _ => none)
      (AiDispatchLedger.markExternalStarted serde faults dispatchId updatedAt ledger)
  | markFailed dispatchId updatedAt =>
    withAnswer (fun _ => none)
      (AiDispatchLedger.markFailed serde faults dispatchId updatedAt ledger)
  | markExternalPreflightFailed dispatchId updatedAt =>
    withAnswer (fun _ => none)
      (AiDispatchLedger.markExternalPreflightFailed serde faults dispatchId updatedAt ledger)
  | markCompleted dispatchId updatedAt =>
    withAnswer (fun _ => none)
      (AiDispatchLedger.markCompleted serde faults dispatchId updatedAt ledger)
  | finishUnknown dispatchId => (.done none, AiDispatchLedger.finishUnknown dispatchId ledger)

/-- What an event leaves. A process stops where it is cut off, and where its start fails. -/
def apply (state : State) : Event → State
  | .call call faults =>
    if state.running then
      match call.run serde faults state.ledger with
      | (.cut, ledger) => { ledger, running := false }
      | (_, ledger) => { ledger, running := true }
    else state
  | .restart pid =>
    let world := state.ledger.world.restart pid
    match persistent serde world with
    | .ok ledger => { ledger, running := true }
    | .error _ => { ledger := { state.ledger with world }, running := false }

/-- What a run of events leaves. -/
def run (events : List Event) (state : State) : State := events.foldl (apply serde) state

/-- Before the first start. -/
def State.first (world : World) : State where
  ledger := { data := { records := ∅, active := [] }, world }
  running := false

end Code

/-! ## What a call does -/

/-- A mark's dispatch, the state it expects, the state it moves a record to, the time, and whether
the dispatch is no longer active then. -/
def LedgerCall.mark :
    LedgerCall → Option (String × AiDispatchState × AiDispatchState × String × Bool)
  | markExternalStarted dispatchId updatedAt =>
    some (dispatchId, .prepared, .externalStarted, updatedAt, false)
  | markFailed dispatchId updatedAt => some (dispatchId, .prepared, .failed, updatedAt, true)
  | markExternalPreflightFailed dispatchId updatedAt =>
    some (dispatchId, .externalStarted, .failed, updatedAt, true)
  | markCompleted dispatchId updatedAt =>
    some (dispatchId, .externalStarted, .completed, updatedAt, true)
  | begin _ | finishUnknown _ => none

/-- The one mark that leaves its dispatch active starts the external turn. -/
theorem LedgerCall.mark_of_active (call : LedgerCall) {dispatchId updatedAt : String}
    {expected state : AiDispatchState}
    (h : call.mark = some (dispatchId, expected, state, updatedAt, false)) :
    call = .markExternalStarted dispatchId updatedAt ∧ state = .externalStarted := by
  cases call with
  | markExternalStarted id time =>
    simp only [mark, Option.some.injEq, Prod.mk.injEq] at h
    obtain ⟨rfl, -, rfl, rfl, -⟩ := h
    exact ⟨rfl, rfl⟩
  | _ => simp [mark] at h

/-- The call persists records, and when it has, the data is as in `next` and it gives `answer`.
Until then the data is as in `kept`. -/
inductive LedgerStep (data : DispatchLedgerData) :
    LedgerCall → (kept next : DispatchLedgerData) → Option AiDispatchBegin → Prop
  /-- A begin puts in a new record, for which an old one may be pruned. -/
  | reserve (record : AiDispatchRecord) (hvalid : validateRecord record = .ok ())
    (hinactive : record.dispatchId ∉ data.active)
    (hfresh : data.records[record.dispatchId]? = none)
    (hroom : (pruneTerminalRecords data.records).size < maximumDispatchRecords) :
    LedgerStep data (.begin record) { data with records := pruneTerminalRecords data.records }
      { records := (pruneTerminalRecords data.records).insert record.dispatchId
          { record with state := .prepared }
        active := record.dispatchId :: data.active } (some .reserved)
  /-- A mark moves the record of an active dispatch. -/
  | move (call : LedgerCall) (dispatchId updatedAt : String) (current : AiDispatchRecord)
    (state : AiDispatchState) (finish : Bool)
    (hmark : call.mark = some (dispatchId, current.state, state, updatedAt, finish))
    (htime : validTimestamp updatedAt = true) (hactive : dispatchId ∈ data.active)
    (hcurrent : data.records[dispatchId]? = some current) :
    LedgerStep data call data
      { records := data.records.insert dispatchId { current with state, updatedAt }
        active := if finish then data.active.filter (· != dispatchId) else data.active } none

/-- What a call gives that persists nothing. -/
inductive Answers (ledger : DesktopAiDispatchLedger) :
    LedgerCall → Outcome AiDispatchLedgerError (Option AiDispatchBegin) → DispatchLedgerData → Prop
  | error (call : LedgerCall) (e : AiDispatchLedgerError) :
    Answers ledger call (.error e) ledger.data
  /-- There is no room, and nothing that can be pruned to make it. -/
  | full (record : AiDispatchRecord) (e : AiDispatchLedgerError)
    (hfresh : ledger.data.records[record.dispatchId]? = none) :
    Answers ledger (.begin record) (.error e)
      { ledger.data with records := pruneTerminalRecords ledger.data.records }
  | active (record : AiDispatchRecord) (hactive : record.dispatchId ∈ ledger.data.active) :
    Answers ledger (.begin record) (.done (some .active)) ledger.data
  | existing (record existing : AiDispatchRecord)
    (hexisting : ledger.data.records[record.dispatchId]? = some existing) :
    Answers ledger (.begin record) (.done (some (.existing existing))) ledger.data
  | finished (dispatchId : String) :
    Answers ledger (.finishUnknown dispatchId) (.done none)
      { ledger.data with active := ledger.data.active.filter (· != dispatchId) }

/-- What a call returns and leaves once it has persisted records, or has failed to. -/
def committed (kept next : DispatchLedgerData) (answer : Option AiDispatchBegin) :
    Outcome AiDispatchLedgerError Unit × World →
      Outcome AiDispatchLedgerError (Option AiDispatchBegin) × DesktopAiDispatchLedger
  | (.done (), world) => (.done answer, { data := next, world })
  | (.error e, world) => (.error e, { data := kept, world })
  | (.cut, world) => (.cut, { data := kept, world })

/-- How a call ends: it persists records, or nothing. -/
inductive CallEnds (serde : Serde PersistedDispatchLedger) (faults : List Fault)
    (ledger : DesktopAiDispatchLedger) (call : LedgerCall) :
    Outcome AiDispatchLedgerError (Option AiDispatchBegin) × DesktopAiDispatchLedger → Prop
  | answers (outcome : Outcome AiDispatchLedgerError (Option AiDispatchBegin))
    (data : DispatchLedgerData) (h : Answers ledger call outcome data) :
    CallEnds serde faults ledger call (outcome, { data, world := ledger.world })
  | persists (kept next : DispatchLedgerData) (answer : Option AiDispatchBegin)
    (hstep : LedgerStep ledger.data call kept next answer) :
    CallEnds serde faults ledger call (committed kept next answer
      (((dispatchLedgerPersistence serde).persist next.records).run faults ledger.world))

section Calls

variable {serde : Serde PersistedDispatchLedger} {faults : List Fault}
  {ledger : DesktopAiDispatchLedger}

/-- A commit persists the records of the data that it takes over. -/
theorem commit_eq (next : DispatchLedgerData) :
    commit serde faults next.records next ledger =
      match ((dispatchLedgerPersistence serde).persist next.records).run faults ledger.world with
      | (.done (), world) => (.done (), { data := next, world })
      | (.error e, world) => (.error e, { data := ledger.data, world })
      | (.cut, world) => (.cut, { data := ledger.data, world }) := rfl

/-- A commit with its answer is the answer and data that the write of the next records leaves. -/
theorem map_commit (next : DispatchLedgerData) (answer : Option AiDispatchBegin) :
    withAnswer (fun _ => answer) (commit serde faults next.records next ledger) =
      committed ledger.data next answer
        (((dispatchLedgerPersistence serde).persist next.records).run faults ledger.world) := by
  rw [commit_eq]
  rcases ((dispatchLedgerPersistence serde).persist next.records).run faults ledger.world with
    ⟨_ | _ | _, world⟩ <;> rfl

/-- A mark moves its record, or it changes nothing. -/
theorem transition_ends (call : LedgerCall) {dispatchId updatedAt : String}
    {expected nextState : AiDispatchState} {finish : Bool}
    (hmark : call.mark = some (dispatchId, expected, nextState, updatedAt, finish)) :
    CallEnds serde faults ledger call (withAnswer (fun _ => none)
      (transition serde faults dispatchId expected nextState updatedAt finish ledger)) := by
  -- Every guard of the transition answers with an error and leaves the ledger.
  have hrefused : ∀ e, CallEnds serde faults ledger call (.error e, ledger) :=
    fun e => .answers _ _ (.error call e)
  unfold transition
  by_cases harguments : (!validDispatchId dispatchId || !validTimestamp updatedAt) = true
  · rw [if_pos harguments]
    exact hrefused _
  by_cases hactive : (!ledger.data.active.contains dispatchId) = true
  · rw [if_neg harguments, if_pos hactive]
    exact hrefused _
  rw [if_neg harguments, if_neg hactive]
  simp only [Bool.or_eq_true, not_or, Bool.not_eq_true', Bool.not_eq_false] at harguments
  have hmem : dispatchId ∈ ledger.data.active := by simpa using hactive
  rcases hcurrent : ledger.data.records[dispatchId]? with _ | current
  · exact hrefused _
  dsimp only
  by_cases hstate : (current.state != expected) = true
  · rw [if_pos hstate]
    exact hrefused _
  rw [if_neg hstate]
  simp only [bne_iff_ne, ne_eq, not_not] at hstate
  subst hstate
  -- The record is in the state that is expected, so the call makes its move and persists it.
  have hstep :=
    @LedgerStep.move ledger.data call dispatchId updatedAt current nextState finish hmark
    harguments.2 hmem hcurrent
  have hcommit := @map_commit serde faults ledger
    { records :=
        ledger.data.records.insert dispatchId { current with state := nextState, updatedAt }
      active := if finish then ledger.data.active.filter (· != dispatchId) else ledger.data.active }
    none
  rw [hcommit]
  exact .persists _ _ _ hstep

/-- A begin puts in a new record, or it changes no other than to prune. -/
theorem begin_ends (record : AiDispatchRecord) :
    CallEnds serde faults ledger (.begin record)
      (withAnswer some (AiDispatchLedger.begin serde faults record ledger)) := by
  -- So does every guard of `begin`.
  have hrefused : ∀ e, CallEnds serde faults ledger (.begin record) (.error e, ledger) :=
    fun e => .answers _ _ (.error _ e)
  unfold AiDispatchLedger.begin
  rcases hvalid : validateRecord record with e | _
  · exact hrefused e
  dsimp only
  by_cases hactive : ledger.data.active.contains record.dispatchId = true
  · rw [if_pos hactive]
    exact .answers _ _ (.active record (by simpa using hactive))
  rw [if_neg hactive]
  rcases hexisting : ledger.data.records[record.dispatchId]? with _ | existing
  · dsimp only
    -- A full table refuses the record, although a record may have been pruned for it.
    by_cases hfull : maximumDispatchRecords ≤ (pruneTerminalRecords ledger.data.records).size
    · rw [if_pos hfull]
      exact .answers _ _ (.full record _ hexisting)
    rw [if_neg hfull]
    have hstep := LedgerStep.reserve record hvalid (by simpa using hactive) hexisting (by omega)
    have hends := @CallEnds.persists serde faults ledger _ _ _ _ hstep
    unfold commit
    dsimp only at hends ⊢
    rcases hrun : ((dispatchLedgerPersistence serde).persist
      ((pruneTerminalRecords ledger.data.records).insert record.dispatchId
        { record with state := .prepared })).run faults ledger.world with ⟨_ | _ | _, world⟩
    all_goals
      rw [hrun] at hends
      exact hends
  -- The dispatch is there already, or another one has its id.
  · dsimp only
    by_cases hsame : (!sameDispatch existing { record with state := .prepared }) = true
    · rw [if_pos hsame]
      exact hrefused _
    · rw [if_neg hsame]
      exact .answers _ _ (.existing record existing hexisting)

/-- Every call persists records, or nothing. -/
theorem LedgerCall.ends (call : LedgerCall) :
    CallEnds serde faults ledger call (call.run serde faults ledger) := by
  cases call with
  | begin record => exact begin_ends record
  | markExternalStarted | markFailed | markExternalPreflightFailed | markCompleted =>
    exact transition_ends _ rfl
  | finishUnknown dispatchId => exact .answers _ _ (.finished dispatchId)

end Calls

/-! ## The records in memory -/

/-- The records are valid, and a turn that is active is not over. -/
structure Sound (data : DispatchLedgerData) : Prop where
  valid : ValidRecords data.records
  active : ∀ dispatchId ∈ data.active, ∃ record, data.records[dispatchId]? = some record ∧
    isTerminal record = false

section Memory

variable {data kept next : DispatchLedgerData} {call : LedgerCall} {answer : Option AiDispatchBegin}

/-- What pruning leaves of the records: all, or all but one whose turn is over. -/
theorem pruneTerminalRecords_cases {records : Records} (h : ValidRecords records) :
    pruneTerminalRecords records = records ∨
      ∃ dispatchId record, records[dispatchId]? = some record ∧ isTerminal record = true ∧
        pruneTerminalRecords records = records.erase dispatchId :=
  pruneOldest_cases maximumDispatchRecords olderThan isTerminal h.key

/-- A record whose turn is not over is not pruned. -/
theorem pruneTerminalRecords_kept {records : Records} (h : ValidRecords records)
    {dispatchId : String} {record : AiDispatchRecord}
    (hrecord : records[dispatchId]? = some record) (hopen : isTerminal record = false) :
    (pruneTerminalRecords records)[dispatchId]? = some record := by
  rcases pruneTerminalRecords_cases h with heq | ⟨other, old, hold, hterminal, heq⟩
  · rw [heq]
    exact hrecord
  · rw [heq, getElem?_erase_eq_some]
    refine ⟨?_, hrecord⟩
    rintro rfl
    rw [hrecord, Option.some.injEq] at hold
    rw [hold, hterminal] at hopen
    cases hopen

/-- Making room for a new record keeps the ledger sound. -/
theorem Sound.prune (h : Sound data) :
    Sound { data with records := pruneTerminalRecords data.records } where
  valid := h.valid.prune h.valid.key
  active dispatchId hactive := by
    obtain ⟨record, hrecord, hopen⟩ := h.active dispatchId hactive
    exact ⟨record, pruneTerminalRecords_kept h.valid hrecord hopen, hopen⟩

/-- The check of a record does not depend on its state. -/
theorem validateRecord_state {record : AiDispatchRecord} (h : validateRecord record = .ok ())
    (state : AiDispatchState) : validateRecord { record with state } = .ok () := h

/-- A step keeps the data sound, whether its records are persisted or not. -/
theorem LedgerStep.sound (h : LedgerStep data call kept next answer) (hdata : Sound data) :
    Sound kept ∧ Sound next := by
  cases h with
  | reserve record hvalid hinactive hfresh hroom =>
    have hpruned := hdata.prune
    -- Pruning removes another record, or none.
    have hnone : (pruneTerminalRecords data.records)[record.dispatchId]? = none := by
      rcases pruneTerminalRecords_cases hdata.valid with heq | ⟨other, old, -, -, heq⟩
      · rw [heq]
        exact hfresh
      · rw [heq, ExtTreeMap.getElem?_erase]
        split_ifs
        · rfl
        · exact hfresh
    refine ⟨hpruned, ?_, fun dispatchId hactive => ?_⟩
    · exact ValidMap.insert hpruned.valid ⟨rfl, validateRecord_state hvalid _⟩ (.inr hroom)
    · rcases List.mem_cons.mp hactive with rfl | hactive
      · exact ⟨_, ExtTreeMap.getElem?_insert_self, rfl⟩
      · obtain ⟨other, hother, hopen⟩ := hpruned.active dispatchId hactive
        -- The new record is not one of those that were active.
        refine ⟨other, getElem?_insert_eq_some.mpr (.inr ⟨?_, hother⟩), hopen⟩
        rintro rfl
        rw [hnone] at hother
        cases hother
  | move call dispatchId updatedAt current state finish hmark htime hactive hcurrent =>
    obtain ⟨hid, hvalid⟩ := hdata.valid.entries dispatchId current hcurrent
    have hcontains : data.records.contains dispatchId = true := by
      rw [ExtTreeMap.contains_eq_isSome_getElem?, hcurrent]
      rfl
    refine ⟨hdata, ?_, fun other hother => ?_⟩
    · exact ValidMap.insert hdata.valid ⟨hid, validateRecord_update hvalid state htime⟩
        (.inl hcontains)
    -- A mark that does not finish the dispatch leaves its record open.
    · have hdone : finish = false → isTerminal { current with state, updatedAt } = false := by
        intro hfinish
        rw [hfinish] at hmark
        obtain ⟨-, rfl⟩ := call.mark_of_active hmark
        rfl
      -- What is active still was active before.
      have hother' : other ∈ data.active ∧ (finish = true → other ≠ dispatchId) := by
        split at hother
        · next hfinish => simpa [hfinish] using hother
        · next hfinish => exact ⟨hother, fun heq => absurd heq hfinish⟩
      obtain ⟨record, hrecord, hopen⟩ := hdata.active other hother'.1
      by_cases heq : other = dispatchId
      · subst heq
        refine ⟨_, ExtTreeMap.getElem?_insert_self, hdone ?_⟩
        by_contra hfinish
        exact hother'.2 (by simpa using hfinish) rfl
      · exact ⟨record, getElem?_insert_eq_some.mpr (.inr ⟨heq, hrecord⟩), hopen⟩

/-- What a call answers leaves a sound ledger sound. -/
theorem Answers.sound {ledger : DesktopAiDispatchLedger}
    {outcome : Outcome AiDispatchLedgerError (Option AiDispatchBegin)}
    (h : Answers ledger call outcome data) (hledger : Sound ledger.data) : Sound data := by
  cases h with
  | error | active | existing => exact hledger
  | full => exact hledger.prune
  | finished dispatchId =>
    exact ⟨hledger.valid, fun other hother => hledger.active other (List.mem_of_mem_filter hother)⟩

/-- The records in a file are checked when it is loaded. -/
theorem validRecords_of_ofPersisted {persisted : PersistedDispatchLedger} {records : Records}
    (h : ofPersisted persisted = some records) : ValidRecords records := by
  unfold ofPersisted at h
  split_ifs at h with hguard
  simp only [Bool.or_eq_true, not_or, decide_eq_true_eq] at hguard
  have hsize := collect_size h
  refine ⟨?_, fun dispatchId record hrecord => ?_⟩
  · rw [ExtTreeMap.size_empty] at hsize
    omega
  · rcases collect_eq_some h dispatchId record hrecord with hempty | ⟨row, -, hrow⟩
    · simp at hempty
    · unfold persistedEntry at hrow
      dsimp only at hrow
      split at hrow
      · next hvalid =>
        rw [Option.some.injEq, Prod.mk.injEq] at hrow
        obtain ⟨hid, rfl⟩ := hrow
        exact ⟨hid, hvalid⟩
      · cases hrow

end Memory

/-! ## Runs -/

section Runs

variable {serde : Serde PersistedDispatchLedger} {state : State} {event : Event}

/-- After a commit the data is the one before, or the next one once the write is done. -/
theorem committed_data {kept next : DispatchLedgerData} {answer : Option AiDispatchBegin}
    (result : Outcome AiDispatchLedgerError Unit × World) :
    (committed kept next answer result).2.data = kept ∨
      result.1 = .done () ∧ (committed kept next answer result).2.data = next := by
  rcases result with ⟨_ | _ | _, world⟩
  · exact .inr ⟨rfl, rfl⟩
  · exact .inl rfl
  · exact .inl rfl

/-- However a call ends, the ledger it leaves is sound when the one before it was. -/
theorem CallEnds.sound {faults : List Fault} {ledger : DesktopAiDispatchLedger} {call : LedgerCall}
    {ended : Outcome AiDispatchLedgerError (Option AiDispatchBegin) × DesktopAiDispatchLedger}
    (h : CallEnds serde faults ledger call ended) (hledger : Sound ledger.data) :
    Sound ended.2.data := by
  cases h with
  | answers outcome data h => exact h.sound hledger
  | persists kept next answer hstep =>
    obtain ⟨hkept, hnext⟩ := hstep.sound hledger
    rcases @committed_data kept next answer (((dispatchLedgerPersistence serde).persist
      next.records).run faults ledger.world) with heq | ⟨-, heq⟩
    · rw [heq]
      exact hkept
    · rw [heq]
      exact hnext

/-- The data of a call, whether the process goes on after it or not. -/
theorem apply_call_ledger (call : LedgerCall) (faults : List Fault)
    (hrunning : state.running = true) :
    (apply serde state (.call call faults)).ledger = (call.run serde faults state.ledger).2 := by
  rw [apply, if_pos hrunning]
  rcases call.run serde faults state.ledger with ⟨_ | _ | _, ledger⟩ <;> rfl

/-- A load gives valid records, whatever the file is. -/
theorem persistent_sound {world : World} {ledger : DesktopAiDispatchLedger}
    (h : persistent serde world = .ok ledger) : Sound ledger.data := by
  have hends := Prog.run_wp _ [] world
    (@JsonStore.load_wp _ (dispatchLedgerPersistence serde) world)
  unfold persistent at h
  rcases hrun : (dispatchLedgerPersistence serde).load.run [] world with ⟨_ | _ | _, after⟩
  · rw [hrun] at h hends
    obtain rfl := Except.ok.inj h
    refine ⟨?_, fun dispatchId hactive => by simp at hactive⟩
    rcases hends.2 with rfl | ⟨body, hbody⟩
    · exact .empty _
    · obtain ⟨persisted, -, hrecords⟩ := Option.bind_eq_some_iff.mp hbody
      exact validRecords_of_ofPersisted hrecords
  · rw [hrun] at h
    cases h
  · rw [hrun] at h
    cases h

/-- One event keeps the data sound. -/
theorem apply_sound (h : Sound state.ledger.data) : Sound
    (apply serde state event).ledger.data := by
  cases event with
  | call call faults =>
    by_cases hrunning : state.running = true
    · rw [apply_call_ledger call faults hrunning]
      exact call.ends.sound h
    · rw [apply, if_neg hrunning]
      exact h
  | restart pid =>
    rw [apply]
    dsimp only
    rcases hstart : persistent serde (state.ledger.world.restart pid) with e | ledger
    · exact h
    · exact persistent_sound hstart

/-- In every run, from any directory, the data is sound. -/
theorem run_sound (events : List Event) (h : Sound state.ledger.data) :
    Sound (run serde events state).ledger.data := by
  induction events generalizing state with
  | nil => exact h
  | cons event events ih => exact ih (apply_sound h)

/-- The ledger of the first state is sound. -/
theorem sound_first (world : World) : Sound (State.first world).ledger.data :=
  ⟨.empty _, fun dispatchId hactive => by simp [State.first] at hactive⟩

/-! ## The file -/

variable (serde) in
/-- The event is a call that loses the file: it persists records, and exposes the file. -/
def Loses (state : State) (event : Event) : Prop :=
  ∃ call faults kept next answer, event = .call call faults ∧ state.running = true ∧
    LedgerStep state.ledger.data call kept next answer ∧
    (dispatchLedgerPersistence serde).Exposes next.records faults state.ledger.world

variable (serde) in
/-- The file holds the records that were persisted last, and these are the records in memory, with
what was pruned from there. -/
def Holds (state : State) : Prop :=
  ∃ saved : Option Records,
    (dispatchLedgerPersistence serde).Consistent ValidRecords ⟨state.ledger.world, saved⟩ ∧
      ∀ dispatchId record, state.record dispatchId = some record →
        (saved.getD ∅)[dispatchId]? = some record

variable (serde) in
/-- The event is a begin of another dispatch, for which the record of this one is pruned. The ledger
is full, and the turn of the record is over. -/
def Prunes (dispatchId : String) (state : State) (event : Event) : Prop :=
  ∃ (record old : AiDispatchRecord) (faults : List Fault), event = .call (.begin record) faults ∧
    record.dispatchId ≠ dispatchId ∧ state.record dispatchId = some old ∧ isTerminal old = true ∧
    maximumDispatchRecords ≤ state.ledger.data.records.size ∧
    (apply serde state event).record dispatchId = none

/-- What an event does to the record of a dispatch, other than to prune it. -/
inductive Stays (record : AiDispatchRecord) : Option AiDispatchRecord → Prop
  | same : Stays record (some record)
  /-- A mark moves it, and not to `prepared`. -/
  | moved (state : AiDispatchState) (updatedAt : String) (h : state ≠ .prepared) :
    Stays record (some { record with state, updatedAt })

/-- No mark moves a record to the prepared state. -/
theorem LedgerCall.mark_ne_prepared (call : LedgerCall) {dispatchId updatedAt : String}
    {expected state : AiDispatchState} {finish : Bool}
    (h : call.mark = some (dispatchId, expected, state, updatedAt, finish)) :
    state ≠ .prepared := by
  cases call with
  | begin | finishUnknown => simp [mark] at h
  | _ =>
    simp only [mark, Option.some.injEq, Prod.mk.injEq] at h
    obtain ⟨-, -, rfl, -, -⟩ := h
    simp

/-- Pruning leaves a record, or it is one whose turn is over, and the ledger is full. -/
theorem pruneTerminalRecords_record {records : Records} (h : ValidRecords records)
    {dispatchId : String} {record : AiDispatchRecord}
    (hrecord : records[dispatchId]? = some record) :
    (pruneTerminalRecords records)[dispatchId]? = some record ∨
      isTerminal record = true ∧ maximumDispatchRecords ≤ records.size ∧
        (pruneTerminalRecords records)[dispatchId]? = none := by
  by_cases hroom : records.size < maximumDispatchRecords
  · refine .inl ?_
    rw [pruneTerminalRecords, pruneOldest_eq_self h.key (.inl hroom)]
    exact hrecord
  rcases pruneTerminalRecords_cases h with heq | ⟨other, old, hold, hterminal, heq⟩
  · rw [heq]
    exact .inl hrecord
  · rw [heq]
    by_cases hid : dispatchId = other
    · subst hid
      rw [hrecord, Option.some.injEq] at hold
      refine .inr ⟨hold ▸ hterminal, by omega, ExtTreeMap.getElem?_erase_self⟩
    · exact .inl (getElem?_erase_eq_some.mpr ⟨hid, hrecord⟩)

/-- Pruning adds nothing. -/
theorem pruneTerminalRecords_subset {records : Records} (h : ValidRecords records)
    {dispatchId : String} {record : AiDispatchRecord}
    (hrecord : (pruneTerminalRecords records)[dispatchId]? = some record) :
    records[dispatchId]? = some record := by
  rcases pruneTerminalRecords_cases h with heq | ⟨other, old, -, -, heq⟩
  · rwa [heq] at hrecord
  · rw [heq] at hrecord
    exact (getElem?_erase_eq_some.mp hrecord).2

section Records

variable {data kept next : DispatchLedgerData} {call : LedgerCall} {answer : Option AiDispatchBegin}
  {dispatchId : String} {record : AiDispatchRecord}

/-- The call prunes the record of the dispatch to make room for another one. -/
def MakesRoom (data : DispatchLedgerData) (call : LedgerCall) (dispatchId : String)
    (record : AiDispatchRecord) : Prop :=
  ∃ other, call = .begin other ∧ other.dispatchId ≠ dispatchId ∧ isTerminal record = true ∧
    maximumDispatchRecords ≤ data.records.size

/-- A begin of a new dispatch leaves the record of another one, unless it prunes it. -/
theorem begin_record (hdata : Sound data) {other : AiDispatchRecord}
    (hfresh : data.records[other.dispatchId]? = none)
    (hrecord : data.records[dispatchId]? = some record) :
    other.dispatchId ≠ dispatchId ∧
      ((pruneTerminalRecords data.records)[dispatchId]? = some record ∨
        MakesRoom data (.begin other) dispatchId record ∧
          (pruneTerminalRecords data.records)[dispatchId]? = none) := by
  have hne : other.dispatchId ≠ dispatchId := by
    intro heq
    rw [heq, hrecord] at hfresh
    cases hfresh
  refine ⟨hne, ?_⟩
  rcases pruneTerminalRecords_record hdata.valid hrecord with hkept | ⟨hterminal, hfull, hnone⟩
  · exact .inl hkept
  · exact .inr ⟨⟨other, rfl, hne, hterminal, hfull⟩, hnone⟩

/-- A step leaves the record of a dispatch, moves it, or prunes it. -/
theorem LedgerStep.record_cases (h : LedgerStep data call kept next answer) (hdata : Sound data)
    (hrecord : data.records[dispatchId]? = some record) :
    (kept.records[dispatchId]? = some record ∧ Stays record next.records[dispatchId]?) ∨
      MakesRoom data call dispatchId record ∧ kept.records[dispatchId]? = none ∧
        next.records[dispatchId]? = none := by
  cases h with
  | reserve other hvalid hinactive hfresh hroom =>
    obtain ⟨hne, hpruned⟩ := begin_record hdata hfresh hrecord
    have hinsert : ((pruneTerminalRecords data.records).insert other.dispatchId
        { other with state := .prepared })[dispatchId]? =
          (pruneTerminalRecords data.records)[dispatchId]? := by
      rw [ExtTreeMap.getElem?_insert, if_neg]
      simpa using hne
    dsimp only
    rw [hinsert]
    rcases hpruned with hkept | ⟨hmakes, hnone⟩
    · rw [hkept]
      exact .inl ⟨rfl, .same⟩
    · exact .inr ⟨hmakes, hnone, hnone⟩
  | move call id updatedAt current state finish hmark htime hactive hcurrent =>
    refine .inl ⟨hrecord, ?_⟩
    dsimp only
    by_cases hid : id = dispatchId
    · subst hid
      rw [hrecord, Option.some.injEq] at hcurrent
      rw [ExtTreeMap.getElem?_insert_self, ← hcurrent]
      exact .moved state updatedAt (call.mark_ne_prepared hmark)
    · rw [ExtTreeMap.getElem?_insert, if_neg (by simpa using hid), hrecord]
      exact .same

/-- Until the records are persisted, a step adds none. -/
theorem LedgerStep.kept_subset (h : LedgerStep data call kept next answer) (hdata : Sound data)
    (hrecord : kept.records[dispatchId]? = some record) :
    data.records[dispatchId]? = some record := by
  cases h with
  | reserve => exact pruneTerminalRecords_subset hdata.valid hrecord
  | move => exact hrecord

variable {ledger : DesktopAiDispatchLedger}
  {outcome : Outcome AiDispatchLedgerError (Option AiDispatchBegin)}

/-- A call that keeps the other records keeps this one, unless it makes room by pruning it. -/
theorem Answers.record_cases (h : Answers ledger call outcome data) (hledger : Sound ledger.data)
    (hrecord : ledger.data.records[dispatchId]? = some record) :
    data.records[dispatchId]? = some record ∨
      MakesRoom ledger.data call dispatchId record ∧ data.records[dispatchId]? = none := by
  cases h with
  | full other e hfresh => exact (begin_record hledger hfresh hrecord).2
  | _ => exact .inl hrecord

/-- A record that a call cannot have written was there before it. -/
theorem Answers.subset (h : Answers ledger call outcome data) (hledger : Sound ledger.data)
    (hrecord : data.records[dispatchId]? = some record) :
    ledger.data.records[dispatchId]? = some record := by
  cases h with
  | full => exact pruneTerminalRecords_subset hledger.valid hrecord
  | _ => exact hrecord

/-- A call leaves the record of a dispatch, moves it, or prunes it. -/
theorem CallEnds.record_cases {faults : List Fault}
    {ended : Outcome AiDispatchLedgerError (Option AiDispatchBegin) × DesktopAiDispatchLedger}
    (h : CallEnds serde faults ledger call ended) (hledger : Sound ledger.data)
    (hrecord : ledger.data.records[dispatchId]? = some record) :
    Stays record ended.2.data.records[dispatchId]? ∨
      MakesRoom ledger.data call dispatchId record ∧ ended.2.data.records[dispatchId]? = none := by
  cases h with
  | answers outcome data h =>
    rcases h.record_cases hledger hrecord with hkept | hmakes
    · dsimp only
      rw [hkept]
      exact .inl .same
    · exact .inr hmakes
  | persists kept next answer hstep =>
    rcases @committed_data kept next answer (((dispatchLedgerPersistence serde).persist
      next.records).run faults ledger.world) with heq | ⟨-, heq⟩
    · rw [heq]
      rcases hstep.record_cases hledger hrecord with ⟨hkept, -⟩ | ⟨hmakes, hnone, -⟩
      · rw [hkept]
        exact .inl .same
      · exact .inr ⟨hmakes, hnone⟩
    · rw [heq]
      rcases hstep.record_cases hledger hrecord with ⟨-, hstays⟩ | ⟨hmakes, -, hnone⟩
      · exact .inl hstays
      · exact .inr ⟨hmakes, hnone⟩

end Records

/-- A start with the file that holds the records gives them. -/
theorem Holds.persistent (hserde : serde.RoundTrips) {saved : Option Records} {world : World}
    (h : (dispatchLedgerPersistence serde).Consistent ValidRecords ⟨world, saved⟩) :
    AiDispatchLedger.persistent serde world =
      .ok { data := { records := saved.getD ∅, active := [] }, world } := by
  have hload : (dispatchLedgerPersistence serde).load.run [] world =
      (.done (saved.getD ∅), world) := h.load (dispatchLedgerPersistence_lawful hserde)
  rw [AiDispatchLedger.persistent, hload]

/-- A restart leaves the saved records and their files consistent. -/
theorem consistent_restart {saved : Option Records} {world : World}
    (h : (dispatchLedgerPersistence serde).Consistent ValidRecords ⟨world, saved⟩) (pid : ℕ) :
    (dispatchLedgerPersistence serde).Consistent ValidRecords ⟨world.restart pid, saved⟩ :=
  @JsonStore.Consistent.apply _ _ _ _ h (.restart pid) (fun _ _ heq => by cases heq)
    (fun _ _ heq => by cases heq)

/-- An event leaves the record of a dispatch, moves it, or prunes it. -/
theorem apply_record (hserde : serde.RoundTrips) (hsound : Sound state.ledger.data)
    (hholds : Holds serde state) (event : Event) {dispatchId : String} {record : AiDispatchRecord}
    (hrecord : state.record dispatchId = some record) :
    Stays record ((apply serde state event).record dispatchId) ∨
      Prunes serde dispatchId state event := by
  cases event with
  | call call faults =>
    by_cases hrunning : state.running = true
    · have hledger := @apply_call_ledger serde state call faults hrunning
      rcases (@LedgerCall.ends serde faults state.ledger call).record_cases hsound hrecord with
        hstays | ⟨⟨other, rfl, hne, hterminal, hfull⟩, hnone⟩
      · rw [State.record, hledger]
        exact .inl hstays
      · refine .inr ⟨other, record, faults, rfl, hne, hrecord, hterminal, hfull, ?_⟩
        rw [State.record, hledger]
        exact hnone
    · rw [apply, if_neg hrunning, hrecord]
      exact .inl .same
  | restart pid =>
    obtain ⟨saved, hconsistent, hsubset⟩ := hholds
    rw [apply]
    dsimp only
    rw [Holds.persistent hserde (consistent_restart hconsistent pid)]
    have hsaved : (saved.getD ∅)[dispatchId]? = some record := hsubset dispatchId record hrecord
    refine .inl ?_
    show Stays record (saved.getD ∅)[dispatchId]?
    rw [hsaved]
    exact .same

/-- An event that does not lose the file keeps it together with the records. -/
theorem apply_holds (hserde : serde.RoundTrips) (hsound : Sound state.ledger.data)
    (hholds : Holds serde state) (hkeeps : ¬Loses serde state event) :
    Holds serde (apply serde state event) := by
  obtain ⟨saved, hconsistent, hsubset⟩ := hholds
  cases event with
  | call call faults =>
    by_cases hrunning : state.running = true
    · unfold Holds State.record
      rw [apply_call_ledger call faults hrunning]
      have hends := @LedgerCall.ends serde faults state.ledger call
      generalize call.run serde faults state.ledger = ended at hends
      cases hends with
      | answers outcome data h =>
        exact ⟨saved, hconsistent, fun dispatchId record hrecord =>
          hsubset dispatchId record (h.subset hsound hrecord)⟩
      -- The persist must not be one that exposes the file, and then it leaves a consistent file.
      | persists kept next answer hstep =>
        have hsafe : ¬(dispatchLedgerPersistence serde).Exposes next.records faults
            state.ledger.world :=
          fun hexposes => hkeeps ⟨call, faults, kept, next, answer, rfl, hrunning, hstep, hexposes⟩
        have hnext := @JsonStore.Consistent.apply _ _ _ _ hconsistent
          (.persist next.records faults)
          (fun value faults heq => by cases heq; exact (hstep.sound hsound).2.valid)
          (fun value faults heq => by cases heq; exact hsafe)
        unfold JsonStore.apply at hnext
        dsimp only at hnext
        rcases hrun : ((dispatchLedgerPersistence serde).persist next.records).run faults
          state.ledger.world with ⟨_ | _ | _, world⟩
        · rw [hrun] at hnext
          -- A success leaves the new records in the file, any other end the ones from before.
          exact ⟨some next.records, hnext, fun dispatchId record hrecord => hrecord⟩
        · rw [hrun] at hnext
          exact ⟨saved, hnext, fun dispatchId record hrecord =>
            hsubset dispatchId record (hstep.kept_subset hsound hrecord)⟩
        · rw [hrun] at hnext
          exact ⟨saved, hnext, fun dispatchId record hrecord =>
            hsubset dispatchId record (hstep.kept_subset hsound hrecord)⟩
    · rw [apply, if_neg hrunning]
      exact ⟨saved, hconsistent, hsubset⟩
  | restart pid =>
    -- The next process reads what the file has.
    have hrestart := consistent_restart hconsistent pid
    rw [apply]
    dsimp only
    rw [Holds.persistent hserde hrestart]
    exact ⟨saved, hrestart, fun dispatchId record hrecord => hrecord⟩

end Runs

end Mio.Desktop.AiDispatchLedger
