import Mathlib.Logic.Relation
import Mio.Desktop.AiDispatchLaws
import Mio.Desktop.JsonStoreLoads

/-!
# Invariants of the dispatch ledger's runs

A run begins in any directory, and any of its calls can fail or be cut off, so it can also lose the
file. Still the records in memory and those in the file never disagree about a dispatch (`Agrees`),
and so a record follows the states of a dispatch for as long as it stays in the ledger, over
restarts too (`ledger_runs`). A record that a begin prunes has left the ledger in memory, whether or
not the begin then persists that.
-/

namespace Mio.Desktop.AiDispatchLedger

open Library Std

/-- The moves of a dispatch's state. -/
inductive Move : AiDispatchState → AiDispatchState → Prop
  | started : Move .prepared .externalStarted
  | completed : Move .externalStarted .completed
  | failed : Move .externalStarted .failed
  | refused : Move .prepared .failed

/-- The record of the same dispatch, later. -/
structure Follows (old new : AiDispatchRecord) : Prop where
  identity : sameDispatch old new = true
  moves : Relation.ReflTransGen Move old.state new.state

/-- A record follows itself. -/
theorem Follows.refl (record : AiDispatchRecord) : Follows record record :=
  ⟨by simp [sameDispatch], .refl⟩

/-- What follows what follows a record follows it. -/
theorem Follows.trans {a b c : AiDispatchRecord} (h : Follows a b) (h' : Follows b c) :
    Follows a c := by
  have hidentity := h.identity
  have hidentity' := h'.identity
  simp only [sameDispatch, Bool.and_eq_true, beq_iff_eq] at hidentity hidentity'
  obtain ⟨⟨⟨⟨h1, h2⟩, h3⟩, h4⟩, h5⟩ := hidentity
  obtain ⟨⟨⟨⟨h1', h2'⟩, h3'⟩, h4'⟩, h5'⟩ := hidentity'
  refine ⟨?_, h.moves.trans h'.moves⟩
  simp only [sameDispatch, Bool.and_eq_true, beq_iff_eq]
  exact ⟨⟨⟨⟨h1.trans h1', h2.trans h2'⟩, h3.trans h3'⟩, h4.trans h4'⟩, h5.trans h5'⟩

/-- A move of a record follows it. -/
theorem Follows.move (record : AiDispatchRecord) {state : AiDispatchState} (updatedAt : String)
    (h : Move record.state state) : Follows record { record with state, updatedAt } :=
  ⟨by simp [sameDispatch], .single h⟩

/-- A mark asks for one of the moves. -/
theorem LedgerCall.mark_move (call : LedgerCall) {dispatchId updatedAt : String}
    {expected state : AiDispatchState} {finish : Bool}
    (h : call.mark = some (dispatchId, expected, state, updatedAt, finish)) :
    Move expected state := by
  cases call with
  | begin | finishUnknown => simp [mark] at h
  | markExternalStarted | markFailed | markExternalPreflightFailed | markCompleted =>
    simp only [mark, Option.some.injEq, Prod.mk.injEq] at h
    obtain ⟨-, rfl, rfl, -, -⟩ := h
    constructor

section Steps

variable {serde : Serde PersistedDispatchLedger} {data kept next : DispatchLedgerData}
  {call : LedgerCall} {answer : Option AiDispatchBegin} {dispatchId : String}
  {record other : AiDispatchRecord}

/-- A record that a step leaves there follows the one that there was. -/
theorem LedgerStep.follows (h : LedgerStep data call kept next answer) (hdata : Sound data)
    (hrecord : data.records[dispatchId]? = some record)
    (hother : next.records[dispatchId]? = some other) : Follows record other := by
  cases h with
  | reserve fresh hvalid hinactive hfresh hroom =>
    rw [ExtTreeMap.getElem?_insert] at hother
    split_ifs at hother with hid
    · rw [Std.compare_eq_iff_eq] at hid
      rw [hid, hrecord] at hfresh
      cases hfresh
    · have hold := pruneTerminalRecords_subset hdata.valid hother
      rw [hrecord, Option.some.injEq] at hold
      rw [hold]
      exact .refl other
  | move call id updatedAt current state finish hmark htime hactive hcurrent =>
    rw [ExtTreeMap.getElem?_insert] at hother
    split_ifs at hother with hid
    · rw [Std.compare_eq_iff_eq] at hid
      rw [hid, hrecord, Option.some.injEq] at hcurrent
      rw [Option.some.injEq] at hother
      subst hcurrent
      rw [← hother]
      exact .move record updatedAt (call.mark_move hmark)
    · rw [hrecord, Option.some.injEq] at hother
      rw [hother]
      exact .refl other

/-- A record that a call leaves there follows the one that there was. -/
theorem CallEnds.follows {faults : List Fault} {ledger : DesktopAiDispatchLedger}
    {ended : Outcome AiDispatchLedgerError (Option AiDispatchBegin) × DesktopAiDispatchLedger}
    (h : CallEnds serde faults ledger call ended) (hledger : Sound ledger.data)
    (hrecord : ledger.data.records[dispatchId]? = some record)
    (hother : ended.2.data.records[dispatchId]? = some other) : Follows record other := by
  have hsame : ledger.data.records[dispatchId]? = some other → Follows record other := by
    intro h
    rw [hrecord, Option.some.injEq] at h
    rw [h]
    exact .refl other
  cases h with
  | answers outcome data h => exact hsame (h.subset hledger hother)
  | persists kept next answer hstep =>
    rcases @committed_data kept next answer (((dispatchLedgerPersistence serde).persist
      next.records).run faults ledger.world) with heq | ⟨-, heq⟩
    · rw [heq] at hother
      exact hsame (hstep.kept_subset hledger hother)
    · rw [heq] at hother
      exact hstep.follows hledger hrecord hother

variable (serde) in
/-- The file has no other record of a dispatch than the ledger in memory. -/
def Agrees (ledger : DesktopAiDispatchLedger) : Prop :=
  ∀ records, (dispatchLedgerPersistence serde).reading ledger.world.dir.current = .ok records →
    ∀ (dispatchId : String) (record other : AiDispatchRecord),
      ledger.data.records[dispatchId]? = some record → records[dispatchId]? = some other →
        record = other

/-- With the same file or none, and no new record, they still agree. -/
theorem Agrees.left {ledger ledger' : DesktopAiDispatchLedger} (h : Agrees serde ledger)
    (hfile : JsonStore.Left ledger.world ledger'.world)
    (hsubset : ∀ (dispatchId : String) (record : AiDispatchRecord),
      ledger'.data.records[dispatchId]? = some record →
        ledger.data.records[dispatchId]? = some record) :
    Agrees serde ledger' := by
  intro records hreading dispatchId record other hrecord hother
  rcases hfile with hsame | hnone
  · rw [hsame] at hreading
    exact h records hreading dispatchId record other (hsubset _ _ hrecord) hother
  · rw [hnone] at hreading
    obtain rfl : (∅ : Records) = records := Except.ok.inj hreading
    simp at hother

/-- A call keeps memory and file in agreement, wherever it is stopped. -/
theorem CallEnds.agrees {faults : List Fault} {ledger : DesktopAiDispatchLedger}
    {ended : Outcome AiDispatchLedgerError (Option AiDispatchBegin) × DesktopAiDispatchLedger}
    (h : CallEnds serde faults ledger call ended) (hserde : serde.RoundTrips)
    (hledger : Sound ledger.data) (hagrees : Agrees serde ledger) : Agrees serde ended.2 := by
  cases h with
  | answers outcome data h =>
    exact hagrees.left (.inl rfl) fun dispatchId record => h.subset hledger
  | persists kept next answer hstep =>
    have hends := Prog.run_wp _ faults ledger.world
      ((dispatchLedgerPersistence serde).persist_leaves next.records ledger.world)
    have hkept : ∀ (dispatchId : String) (record : AiDispatchRecord),
        kept.records[dispatchId]? = some record →
          ledger.data.records[dispatchId]? = some record :=
      fun dispatchId record => hstep.kept_subset hledger
    rcases hrun : ((dispatchLedgerPersistence serde).persist next.records).run faults
      ledger.world with ⟨_ | _ | _, world⟩
    · rw [hrun] at hends
      intro records hreading dispatchId record other hrecord hother
      have hvalid := (hstep.sound hledger).2.valid
      have hsaved := hends.reading (dispatchLedgerPersistence_lawful hserde) hvalid
      rw [show (committed kept next answer (.done (), world)).2.world = world from rfl, hsaved,
        Except.ok.injEq] at hreading
      have hrecord : next.records[dispatchId]? = some record := hrecord
      rw [hreading, hother, Option.some.injEq] at hrecord
      exact hrecord.symm
    · rw [hrun] at hends
      exact hagrees.left hends hkept
    · rw [hrun] at hends
      exact hagrees.left hends hkept

end Steps

/-- A start gives what there is to read, with no active dispatch. -/
theorem persistent_eq (serde : Serde PersistedDispatchLedger) (world : World) :
    persistent serde world =
      ((dispatchLedgerPersistence serde).reading world.dir.current).map fun records =>
        { data := { records, active := [] }, world } := by
  rw [persistent, JsonStore.load_run]
  rcases (dispatchLedgerPersistence serde).reading world.dir.current with e | records <;> rfl

section Runs

variable {serde : Serde PersistedDispatchLedger} {state : State}

/-- One event keeps memory and file in agreement. -/
theorem apply_agrees (hserde : serde.RoundTrips) (hsound : Sound state.ledger.data)
    (hagrees : Agrees serde state.ledger) (event : Event) :
    Agrees serde (apply serde state event).ledger := by
  cases event with
  | call call faults =>
    by_cases hrunning : state.running = true
    · rw [apply_call_ledger call faults hrunning]
      exact call.ends.agrees hserde hsound hagrees
    · rw [apply, if_neg hrunning]
      exact hagrees
  | restart pid =>
    rw [apply, persistent_eq]
    dsimp only
    rcases hreading : (dispatchLedgerPersistence serde).reading
      (state.ledger.world.restart pid).dir.current with e | records
    · exact hagrees.left (.inl rfl) fun dispatchId record hrecord => hrecord
    · intro records' hreading' dispatchId record other hrecord hother
      have heq : Except.ok records = Except.ok records' := hreading.symm.trans hreading'
      obtain rfl := Except.ok.inj heq
      exact Option.some.inj (hrecord.symm.trans hother)

/-- A record that an event leaves there follows the one that there was. -/
theorem apply_follows (hsound : Sound state.ledger.data) (hagrees : Agrees serde state.ledger)
    (event : Event) {dispatchId : String} {record other : AiDispatchRecord}
    (hrecord : state.record dispatchId = some record)
    (hother : (apply serde state event).record dispatchId = some other) :
    Follows record other := by
  have hsame : state.record dispatchId = some other → Follows record other := by
    intro h
    rw [hrecord, Option.some.injEq] at h
    rw [h]
    exact .refl other
  cases event with
  | call call faults =>
    by_cases hrunning : state.running = true
    · rw [State.record, apply_call_ledger call faults hrunning] at hother
      exact call.ends.follows hsound hrecord hother
    · rw [apply, if_neg hrunning] at hother
      exact hsame hother
  | restart pid =>
    rw [apply, persistent_eq] at hother
    dsimp only at hother
    rcases hreading : (dispatchLedgerPersistence serde).reading
      (state.ledger.world.restart pid).dir.current with e | records
    · rw [hreading] at hother
      exact hsame hother
    · rw [hreading] at hother
      obtain rfl := hagrees records hreading dispatchId record other hrecord hother
      exact .refl record

/-- In every run, memory and file agree. -/
theorem run_agrees (hserde : serde.RoundTrips) (events : List Event)
    (hsound : Sound state.ledger.data) (hagrees : Agrees serde state.ledger) :
    Agrees serde (run serde events state).ledger := by
  induction events generalizing state with
  | nil => exact hagrees
  | cons event events ih => exact ih (apply_sound hsound) (apply_agrees hserde hsound hagrees event)

/-- Before the first start, memory and file agree. -/
theorem agrees_first (world : World) : Agrees serde (State.first world).ledger := by
  intro records hreading dispatchId record other hrecord
  simp [State.first] at hrecord

/-- A record that stays follows the states of its dispatch. -/
theorem run_follows (hserde : serde.RoundTrips) (events : List Event)
    (hsound : Sound state.ledger.data) (hagrees : Agrees serde state.ledger) {dispatchId : String}
    {record other : AiDispatchRecord} (hrecord : state.record dispatchId = some record)
    (hother : (run serde events state).record dispatchId = some other)
    (hstays : ∀ before, before <+: events → (run serde before state).record dispatchId ≠ none) :
    Follows record other := by
  induction events generalizing state record with
  | nil =>
    rw [run_nil, hrecord, Option.some.injEq] at hother
    rw [hother]
    exact .refl other
  | cons event events ih =>
    obtain ⟨middle, hmiddle⟩ := Option.ne_none_iff_exists'.mp
      (hstays [event] ⟨events, rfl⟩)
    have hfirst := apply_follows hsound hagrees event hrecord hmiddle
    refine hfirst.trans (ih (apply_sound hsound) (apply_agrees hserde hsound hagrees event) hmiddle
      hother fun before hbefore => ?_)
    obtain ⟨rest, rfl⟩ := hbefore
    exact hstays (event :: before) ⟨rest, rfl⟩

/-! ## The calls -/

/-- How a transition of a dispatch ends. -/
structure TransitionEnds (ledger : DesktopAiDispatchLedger) (dispatchId : String)
    (expected : AiDispatchState)
    (ended : Outcome AiDispatchLedgerError (Option AiDispatchBegin) × DesktopAiDispatchLedger) :
    Prop where
  /-- When it returns, the dispatch was active, and in the state that the transition is from. -/
  active : ∀ answer, ended.1 = .done answer → dispatchId ∈ ledger.data.active ∧
    ∃ record, ledger.data.records[dispatchId]? = some record ∧ record.state = expected
  /-- When it returns an error, the records and the active dispatches are as they were. -/
  unchanged : ∀ e, ended.1 = .error e → ended.2.data = ledger.data

/-- A commit that fails leaves the data that is kept. -/
theorem committed_error {kept next : DispatchLedgerData} {answer : Option AiDispatchBegin}
    {result : Outcome AiDispatchLedgerError Unit × World} {e : AiDispatchLedgerError}
    (h : (committed kept next answer result).1 = .error e) :
    (committed kept next answer result).2.data = kept := by
  rcases result with ⟨_ | _ | _, world⟩
  · cases h
  · rfl
  · rfl

/-- A transition ends so in any state, and under any faults. -/
theorem mark_ends (serde : Serde PersistedDispatchLedger) (faults : List Fault)
    (ledger : DesktopAiDispatchLedger) (call : LedgerCall) {dispatchId updatedAt : String}
    {expected next : AiDispatchState} {finish : Bool}
    (hmark : call.mark = some (dispatchId, expected, next, updatedAt, finish)) :
    TransitionEnds ledger dispatchId expected (call.run serde faults ledger) := by
  have hends := @LedgerCall.ends serde faults ledger call
  generalize call.run serde faults ledger = ended at hends
  cases hends with
  | answers outcome data h =>
    cases h with
    | error call e =>
      refine ⟨fun answer h => ?_, fun e' _ => rfl⟩
      cases h
    | full | active | existing | finished => simp [LedgerCall.mark] at hmark
  | persists kept next answer hstep =>
    cases hstep with
    | reserve => simp [LedgerCall.mark] at hmark
    | move call id time current nextState finish' hmark' htime hactive hcurrent =>
      rw [hmark, Option.some.injEq, Prod.mk.injEq, Prod.mk.injEq] at hmark'
      obtain ⟨rfl, rfl, -⟩ := hmark'
      exact ⟨fun _ _ => ⟨hactive, current, hcurrent, rfl⟩, fun e herror => committed_error herror⟩

/-- The call has persisted records when it returns this. -/
def HasPersisted (call : LedgerCall) (answer : Option AiDispatchBegin) : Prop :=
  call.mark ≠ none ∨ answer = some .reserved

/-- A start after a call that has persisted records gives these records, and no active dispatch. -/
theorem persistent_after (hserde : serde.RoundTrips) {faults : List Fault}
    {ledger ledger' : DesktopAiDispatchLedger} (hledger : Sound ledger.data) {call : LedgerCall}
    {answer : Option AiDispatchBegin}
    (hrun : call.run serde faults ledger = (.done answer, ledger'))
    (hpersisted : HasPersisted call answer) (pid : ℕ) :
    persistent serde (ledger'.world.restart pid) =
      .ok { data := { records := ledger'.data.records, active := [] },
            world := ledger'.world.restart pid } := by
  have hends := @LedgerCall.ends serde faults ledger call
  rw [hrun] at hends
  generalize hended : ((.done answer, ledger') :
    Outcome AiDispatchLedgerError (Option AiDispatchBegin) × DesktopAiDispatchLedger) =
      ended at hends
  cases hends with
  -- An answer that has persisted is no answer from memory.
  | answers outcome data h =>
    obtain ⟨houtcome, -⟩ := Prod.mk.inj hended
    cases h with
    | error | full => cases houtcome
    | active | existing | finished =>
      obtain rfl := Outcome.done.inj houtcome
      simp [HasPersisted, LedgerCall.mark] at hpersisted
  | persists kept next answer' hstep =>
    -- What was persisted is what the next process reads.
    have hsaved := Prog.run_wp _ faults ledger.world
      ((dispatchLedgerPersistence serde).persist_leaves next.records ledger.world)
    rcases hpersist : ((dispatchLedgerPersistence serde).persist next.records).run faults
      ledger.world with ⟨_ | _ | _, world⟩
    · rw [hpersist] at hsaved hended
      obtain ⟨-, rfl⟩ := Prod.mk.inj hended
      have hreading := hsaved.reading (dispatchLedgerPersistence_lawful hserde)
        (hstep.sound hledger).2.valid
      rw [persistent_eq, World.restart_dir, hreading]
      rfl
    · rw [hpersist] at hended
      cases hended
    · rw [hpersist] at hended
      cases hended

variable (serde) in
/-- What holds in every state of a run. -/
structure LedgerLaws (state : State) : Prop where
  /-- There are at most 512 records, each is valid and under its own identifier, and those of the
  active dispatches are not over. -/
  sound : Sound state.ledger.data
  transitions : ∀ (call : LedgerCall) faults dispatchId expected next updatedAt finish,
    call.mark = some (dispatchId, expected, next, updatedAt, finish) →
      TransitionEnds state.ledger dispatchId expected (call.run serde faults state.ledger)
  reloads : ∀ (call : LedgerCall) faults answer ledger,
    call.run serde faults state.ledger = (.done answer, ledger) → HasPersisted call answer →
      ∀ pid, persistent serde (ledger.world.restart pid) =
        .ok { data := { records := ledger.data.records, active := [] },
              world := ledger.world.restart pid }

end Runs

/-- In every run, from any directory and under any faults: each state has the laws, and a record
follows the states of its dispatch for as long as it stays. -/
theorem ledger_runs {serde : Serde PersistedDispatchLedger} (hserde : serde.RoundTrips)
    (world : World) (first between : List Event) :
    LedgerLaws serde (run serde (first ++ between) (.first world)) ∧
      ∀ dispatchId record other,
        (run serde first (.first world)).record dispatchId = some record →
        (run serde (first ++ between) (.first world)).record dispatchId = some other →
        (∀ before, before <+: between →
          (run serde (first ++ before) (.first world)).record dispatchId ≠ none) →
        Follows record other := by
  have hsound := fun events => @run_sound serde _ events (sound_first world)
  refine ⟨⟨hsound _, fun call faults dispatchId expected next updatedAt finish hmark => ?_,
    fun call faults answer ledger hrun hpersisted pid => ?_⟩,
    fun dispatchId record other hrecord hother hstays => ?_⟩
  · exact mark_ends serde faults _ call hmark
  · exact persistent_after hserde (hsound _) hrun hpersisted pid
  · have hagrees := run_agrees hserde first (sound_first world) (agrees_first world)
    rw [run_append] at hother
    refine run_follows hserde between (hsound first) hagrees hrecord hother fun before hbefore => ?_
    have hbefore := hstays before hbefore
    rwa [run_append] at hbefore

/-- The first dispatch is prepared, and then its turn is started. -/
theorem Sample.ledger_runs_first : ∃ old new : AiDispatchRecord,
    (run Sample.serde Sample.beginFirst (.first (World.empty 7))).record (Sample.identifier 0) =
      some old ∧ old.state = .prepared ∧ new.state ≠ .prepared ∧ Follows old new ∧
    LedgerLaws Sample.serde
      (run Sample.serde (Sample.beginFirst ++ [Sample.startFirst]) (.first (World.empty 7))) := by
  obtain ⟨⟨old, hold, hprepared⟩, new, hnew, hmoved⟩ := Sample.first_run.1.record
  have hafter : run Sample.serde (Sample.beginFirst ++ [Sample.startFirst])
      (.first (World.empty 7)) =
        apply Sample.serde (run Sample.serde Sample.beginFirst (.first (World.empty 7)))
          Sample.startFirst := by
    rw [run_append, run_cons, run_nil]
  have hlaws := ledger_runs Sample.serde_roundTrips (World.empty 7) Sample.beginFirst
    [Sample.startFirst]
  refine ⟨old, new, hold, hprepared, hmoved, hlaws.2 _ old new hold ?_ fun before hbefore => ?_,
    hlaws.1⟩
  · rw [hafter]
    exact hnew
  · rcases List.prefix_cons_iff.mp hbefore with rfl | ⟨rest, rfl, hrest⟩
    · rw [List.append_nil, hold]
      simp
    · obtain rfl := List.prefix_nil.mp hrest
      rw [hafter, hnew]
      simp

end Mio.Desktop.AiDispatchLedger
