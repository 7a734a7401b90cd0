import Mio.Desktop.RoomOrchestrator
import Mio.Desktop.RoomRecovery

/-!
# Orchestrations over crashes and restarts

A run is a sequence of calls of `orchestrate`, each of which can be cut off at any of its steps, and
of restarts, from a directory without a ledger. Whatever the Room store, Codex, and the workers
answer, each time that the ledger reserves an operation it asks for at most one plan and one answer,
and hands at most one final message to the Room store (`orchestrated_once`). Its workers are called
in rounds. Each round goes through the delegations that the ledger holds, in their order and from
the first, and only the round before the answer need go through them all.

The events are kept with the latest one first, so that what had happened at an earlier point of the
run is a suffix of them. What an orchestration has done and where its record stands are tied
together by `Tracks`. Each mark moves the record before the event that it allows.
-/

namespace Mio.Desktop.RoomOrchestrator

open Library Std Mio.Core RoomOrchestrationLedger Time
open Mio.Core.Conductor hiding Value
open RoomOrchestration (RoomOrchestrationCommandError RoomOrchestrationResult finalDraft result
  unavailable)

/-! ## What the events say -/

/-- What was done since the operation was last reserved. -/
def sinceReserved (id : String) (events : List OrchestrationEvent) : List OrchestrationEvent :=
  events.takeWhile (· != .reserved id)

/-- Before the first event nothing has happened. -/
@[simp] theorem sinceReserved_nil (id : String) : sinceReserved id [] = [] := rfl

/-- Nothing was done since an operation was reserved just now. -/
@[simp] theorem sinceReserved_reserved (id : String) (events : List OrchestrationEvent) :
    sinceReserved id (.reserved id :: events) = [] := by
  simp [sinceReserved]

/-- Any other event is one more that was done since then. -/
theorem sinceReserved_cons {id : String} {event : OrchestrationEvent}
    (h : event ≠ .reserved id) (events : List OrchestrationEvent) :
    sinceReserved id (event :: events) = event :: sinceReserved id events := by
  simp [sinceReserved, h]

/-- The delegations that workers were called with since the operation was last reserved. -/
def dispatchedLinks (id : String) : List OrchestrationEvent → List OrchestrationDelegationLink
  | [] => []
  | .reserved other :: events => if other = id then [] else dispatchedLinks id events
  | .dispatched other link :: events =>
    if other = id then dispatchedLinks id events ++ [link] else dispatchedLinks id events
  | .planned _ :: events | .delegated _ _ _ :: events | .synthesized _ _ :: events
  | .saved _ :: events => dispatchedLinks id events

/-- The sessions in which the answer was asked for since then. -/
def sessions (id : String) : List OrchestrationEvent → List String
  | [] => []
  | .reserved other :: events => if other = id then [] else sessions id events
  | .synthesized other sessionId :: events =>
    if other = id then sessionId :: sessions id events else sessions id events
  | .planned _ :: events | .delegated _ _ _ :: events | .dispatched _ _ :: events
  | .saved _ :: events => sessions id events

/-- The session and the delegations that the ledger was given since then. -/
def givenPlan (id : String) :
    List OrchestrationEvent → Option (String × List OrchestrationDelegationLink)
  | [] => none
  | .reserved other :: events => if other = id then none else givenPlan id events
  | .delegated other sessionId links :: events =>
    if other = id then some (sessionId, links) else givenPlan id events
  | .planned _ :: events | .dispatched _ _ :: events | .synthesized _ _ :: events
  | .saved _ :: events => givenPlan id events

/-- The delegations that the ledger was given. -/
def givenLinks (id : String) (events : List OrchestrationEvent) :
    List OrchestrationDelegationLink :=
  (givenPlan id events).elim [] (·.2)

/-- The session that the ledger was given. -/
def givenSession (id : String) (events : List OrchestrationEvent) : Option String :=
  (givenPlan id events).map (·.1)

/-- Whether an operation is reserved. -/
def isReserved : OrchestrationEvent → Bool
  | .reserved _ => true
  | _ => false

/-- Rounds through a list, each from its first item on. -/
inductive Rounds {α : Type} (items : List α) : List α → Prop
  | nil : Rounds items []
  | round (n : ℕ) {before : List α} (h : Rounds items before) :
    Rounds items (before ++ items.take n)

/-- What an operation has done since it was last reserved, against the delegations and the session
of its record. -/
structure Laws (links : List OrchestrationDelegationLink) (session : Option String) (id : String)
    (events : List OrchestrationEvent) : Prop where
  /-- The delegations and the session are those that the ledger was given. -/
  given : givenLinks id events = links ∧ givenSession id events = session
  /-- It has asked for one plan at most. -/
  planned : (sinceReserved id events).count (.planned id) ≤ 1
  /-- It has asked for one answer at most. -/
  synthesized : (sessions id events).length ≤ 1
  /-- It has handed one final message at most to the Room store. -/
  saved : (sinceReserved id events).count (.saved id) ≤ 1
  /-- The workers were called in rounds through its delegations. -/
  rounds : Rounds links (dispatchedLinks id events)
  /-- The answer was asked for in its session. -/
  session : ∀ sessionId ∈ sessions id events, session = some sessionId
  /-- Before the answer was asked for, the last round was complete. -/
  complete : sessions id events ≠ [] →
    ∃ before, Rounds links before ∧ dispatchedLinks id events = before ++ links

/-- What an operation has not done yet at a stage, since it was last reserved. -/
structure NotYet (stage : ConductorOperationStage) (id : String)
    (events : List OrchestrationEvent) :
    Prop where
  planned : stage = .prepared → (sinceReserved id events).count (.planned id) = 0
  dispatched : stage = .prepared ∨ stage = .planning → dispatchedLinks id events = []
  synthesized : stage = .prepared ∨ stage = .planning ∨ stage = .delegating →
    sessions id events = []
  saved : stage = .prepared ∨ stage = .planning ∨ stage = .delegating →
    (sinceReserved id events).count (.saved id) = 0

/-- The record of an operation and what it has done go together. -/
def Tracks (records : Records) (events : List OrchestrationEvent) (id : String) : Prop :=
  match records[id]? with
  | some record =>
    Laws record.delegations record.conductorSessionId id events ∧ NotYet record.stage id events
  | none => ∃ links session, Laws links session id events

/-- The operation that an event is of. -/
def OrchestrationEvent.operationId : OrchestrationEvent → String
  | .reserved id | .planned id | .delegated id _ _ | .dispatched id _ | .synthesized id _
  | .saved id => id

section Events

variable {id : String} {event : OrchestrationEvent} {events : List OrchestrationEvent}
  {links : List OrchestrationDelegationLink} {session : Option String}

/-- What an event of another operation leaves as it is. -/
structure SameFor (id : String) (events events' : List OrchestrationEvent) : Prop where
  given : givenPlan id events' = givenPlan id events
  planned : (sinceReserved id events').count (.planned id) =
    (sinceReserved id events).count (.planned id)
  saved : (sinceReserved id events').count (.saved id) =
    (sinceReserved id events).count (.saved id)
  dispatched : dispatchedLinks id events' = dispatchedLinks id events
  sessions : sessions id events' = sessions id events

/-- An event of another operation leaves this one. -/
theorem sameFor_cons (h : event.operationId ≠ id) : SameFor id events (event :: events) := by
  have hother : event ≠ .reserved id := by
    rintro rfl
    exact h rfl
  refine ⟨?_, ?_, ?_, ?_, ?_⟩
  · cases event <;> simp_all [OrchestrationEvent.operationId, givenPlan]
  · rw [sinceReserved_cons hother]
    refine List.count_cons_of_ne ?_
    rintro rfl
    exact h rfl
  · rw [sinceReserved_cons hother]
    refine List.count_cons_of_ne ?_
    rintro rfl
    exact h rfl
  · cases event <;> simp_all [OrchestrationEvent.operationId, dispatchedLinks]
  · cases event <;> simp_all [OrchestrationEvent.operationId, RoomOrchestrator.sessions]

/-- The laws stay when the operation's own events do. -/
theorem SameFor.laws {events' : List OrchestrationEvent} (h : SameFor id events events')
    (hlaws : Laws links session id events) : Laws links session id events' where
  given := by rw [givenLinks, givenSession, h.given]; exact hlaws.given
  planned := by rw [h.planned]; exact hlaws.planned
  synthesized := by rw [h.sessions]; exact hlaws.synthesized
  saved := by rw [h.saved]; exact hlaws.saved
  rounds := by rw [h.dispatched]; exact hlaws.rounds
  session := by rw [h.sessions]; exact hlaws.session
  complete := by rw [h.sessions, h.dispatched]; exact hlaws.complete

/-- What was not done yet is not done by events of others. -/
theorem SameFor.notYet {events' : List OrchestrationEvent} {stage : ConductorOperationStage}
    (h : SameFor id events events') (hnot : NotYet stage id events) : NotYet stage id events' where
  planned := by rw [h.planned]; exact hnot.planned
  dispatched := by rw [h.dispatched]; exact hnot.dispatched
  synthesized := by rw [h.sessions]; exact hnot.synthesized
  saved := by rw [h.saved]; exact hnot.saved

/-- An event of another operation leaves the record and its events together. -/
theorem Tracks.other {records : Records} (h : Tracks records events id)
    (hevent : event.operationId ≠ id) : Tracks records (event :: events) id := by
  have hsame : SameFor id events (event :: events) := sameFor_cons hevent
  unfold Tracks at h ⊢
  split at h
  · exact ⟨hsame.laws h.1, hsame.notYet h.2⟩
  · obtain ⟨links, session, hlaws⟩ := h
    exact ⟨links, session, hsame.laws hlaws⟩

end Events

/-! ## What the ledger does to it -/

/-- What has not been done at a stage has been done the less at one before it. -/
theorem NotYet.forward {stage next : ConductorOperationStage} {id : String}
    {events : List OrchestrationEvent} (h : NotYet stage id events) (hedge : StageEdge stage next) :
    NotYet next id events := by
  cases hedge with
  | plan =>
    exact ⟨by rintro ⟨⟩, fun _ => h.dispatched (.inl rfl), fun _ => h.synthesized (.inl rfl),
      fun _ => h.saved (.inl rfl)⟩
  | delegate =>
    refine ⟨by rintro ⟨⟩, fun hstage => ?_, fun _ => h.synthesized (.inr (.inl rfl)),
      fun _ => h.saved (.inr (.inl rfl))⟩
    rcases hstage with h | h <;> cases h
  | answer | synthesize | complete | fail | lose =>
    constructor <;> intro hstage <;> simp at hstage

/-- An operation that has dispatched nothing is given delegations and a session. -/
theorem Laws.delegate {links : List OrchestrationDelegationLink}
    {session : Option String} {id : String}
    {events : List OrchestrationEvent} (h : Laws links session id events)
    (hdispatched : dispatchedLinks id events = []) (hsessions : sessions id events = [])
    (sessionId : String) (planned : List OrchestrationDelegationLink) :
    Laws planned (some sessionId) id (.delegated id sessionId planned :: events) := by
  have hgiven : givenPlan id (.delegated id sessionId planned :: events) =
    some (sessionId, planned) :=
    if_pos rfl
  have hdispatched' : dispatchedLinks id (.delegated id sessionId planned :: events) =
    [] := hdispatched
  have hsessions' : sessions id (.delegated id sessionId planned :: events) = [] := hsessions
  have hsince : sinceReserved id (.delegated id sessionId planned :: events) =
      .delegated id sessionId planned :: sinceReserved id events :=
    sinceReserved_cons (by rintro ⟨⟩) events
  refine ⟨by simp [givenLinks, givenSession, hgiven], ?_, by simp [hsessions'], ?_, ?_, ?_,
    fun hne => absurd hsessions' hne⟩
  · simpa [hsince, List.count_cons] using h.planned
  · simpa [hsince, List.count_cons] using h.saved
  · rw [hdispatched']
    exact .nil
  · rw [hsessions']
    rintro _ ⟨⟩

/-- A change of a record that was there, or none, but for its delegations and its session. -/
theorem Tracks.change {records next : Records} {events : List OrchestrationEvent} {id : String}
    (h : Tracks records events id) (hchange : RecordChange records[id]? next[id]?)
    (hold : records[id]? = none → next[id]? = none)
    (hlinks : ∀ record record', records[id]? = some record → next[id]? = some record' →
      record'.delegations = record.delegations ∧
        record'.conductorSessionId = record.conductorSessionId) : Tracks next events id := by
  unfold Tracks at h ⊢
  generalize records[id]? = record at h hchange hold hlinks
  generalize next[id]? = record' at hchange hold hlinks ⊢
  cases hchange with
  | same => exact h
  | reserved => cases hold rfl
  | pruned => exact ⟨_, _, h.1⟩
  | moved record stage updatedAt hedge => exact ⟨h.1, h.2.forward hedge⟩
  | delegated record sessionId delegations updatedAt hstage =>
    obtain ⟨hlaws, hnot⟩ := h
    rw [hstage] at hnot
    obtain ⟨hdelegations, hsession⟩ := hlinks _ _ rfl rfl
    dsimp only at hdelegations hsession ⊢
    rw [hdelegations, hsession]
    exact ⟨hlaws, hnot.forward .delegate⟩

/-- What holds of what is the orchestration's own, at every moment. -/
structure Good (serde : Serde PersistedFile) (own : Own) : Prop where
  file : FileHolds serde own.ledger.records own.ledger.world.dir
  tracks : ∀ id, Tracks own.ledger.records own.events id
  /-- At every earlier point of the run, the laws of every operation held. -/
  earlier : ∀ past, past <:+ own.events → ∀ id, ∃ links session, Laws links session id past
  /-- An operation with a record was reserved. -/
  reserved : ∀ id, own.ledger.records.contains id = true → .reserved id ∈ own.events
  /-- An operation that has done something was reserved before. -/
  begun : ∀ event past, event :: past <:+ own.events →
    isReserved event = true ∨ .reserved event.operationId ∈ past
  /-- There are no more records than were reserved. -/
  size : own.ledger.records.size ≤ own.events.countP isReserved
  /-- While the ledger has not been full, an operation is reserved once. -/
  once : own.events.countP isReserved ≤ maximumRecords → ∀ id,
    own.events.count (.reserved id) = if own.ledger.records.contains id then 1 else 0

section Ledger

variable {serde : Serde PersistedFile} {faults : List Fault}
    {ledger : DesktopRoomOrchestrationLedger}
  {events : List OrchestrationEvent}

/-- A commit that is done has the next records. -/
theorem commit_done {next : Records} {after : DesktopRoomOrchestrationLedger}
    (h : commit serde faults next ledger = (.done (), after)) : after.records = next := by
  unfold commit at h
  rcases hrun : (persist serde next).run faults ledger.world with ⟨_ |
    _ | _, world⟩ <;> rw [hrun] at h
  · cases h
    rfl
  · cases h
  · cases h

/-- A commit that is not done keeps the records. -/
theorem commit_kept {next : Records} (h : (commit serde faults next ledger).1 ≠ .done ()) :
    (commit serde faults next ledger).2.records = ledger.records := by
  unfold commit at h ⊢
  rcases hrun : (persist serde next).run faults ledger.world with ⟨_ |
    _ | _, world⟩ <;> rw [hrun] at h
  exact absurd rfl h

/-- A transition that returns has moved its record. -/
theorem transition_done {id updatedAt : String} {expected : List ConductorOperationStage}
    {stage : ConductorOperationStage} {after : DesktopRoomOrchestrationLedger}
    {record : RoomOrchestrationRecord}
    (h : transition serde faults id expected stage updatedAt ledger = (.done (), after))
    (hrecord : ledger.records[id]? = some record) (hstage : record.stage ≠ stage) :
    after.records = ledger.records.insert id { record with stage, updatedAt } := by
  unfold transition at h
  rw [hrecord] at h
  dsimp only at h
  split_ifs at h with harguments hsame hexpected
  · cases h
  · exact absurd (by simpa using hsame) hstage
  · cases h
  · exact commit_done h

/-- The mark for the delegations that returns has set them. -/
theorem markDelegating_done {id sessionId updatedAt : String}
    {links : List OrchestrationDelegationLink} {after : DesktopRoomOrchestrationLedger}
    {record : RoomOrchestrationRecord}
    (h : RoomOrchestrationLedger.markDelegating serde faults id sessionId links updatedAt ledger =
      (.done (), after))
    (hrecord : ledger.records[id]? = some record) (hstage : record.stage ≠ .delegating) :
    after.records = ledger.records.insert id
      { record with
        conductorSessionId := some sessionId
        delegations := links
        stage := .delegating
        updatedAt } := by
  unfold RoomOrchestrationLedger.markDelegating at h
  rw [hrecord] at h
  dsimp only at h
  split_ifs at h with harguments hsame hrepeated hplanning
  · cases h
  · exact absurd (by simpa using hsame) hstage
  · cases h
  · cases h
  · split at h
    · cases h
    · exact commit_done h

/-- The mark for the delegations that does not return leaves the records. -/
theorem markDelegating_kept {id sessionId updatedAt : String}
    {links : List OrchestrationDelegationLink}
    (h : (RoomOrchestrationLedger.markDelegating serde faults id sessionId links updatedAt
      ledger).1 ≠ .done ()) :
    (RoomOrchestrationLedger.markDelegating serde faults id sessionId links updatedAt
      ledger).2.records = ledger.records := by
  unfold RoomOrchestrationLedger.markDelegating at h ⊢
  split_ifs at h ⊢ with harguments
  · rfl
  · split at h
    · rfl
    · split_ifs at h ⊢
      · rfl
      · rfl
      · rfl
      · split at h
        · rfl
        · exact commit_kept h

/-- A mark leaves the operations that there are, and changes a record as it may, but for its
delegations and its session. -/
structure MarkStep (records next : Records) : Prop where
  contains : ∀ id, next.contains id = records.contains id
  size : next.size = records.size
  change : ∀ id : String, RecordChange records[id]? next[id]?
  links : ∀ (id : String) record record', records[id]? = some record → next[id]? = some record' →
    record'.delegations = record.delegations ∧
      record'.conductorSessionId = record.conductorSessionId

/-- A mark may change nothing. -/
theorem markStep_refl (records : Records) : MarkStep records records where
  contains _ := rfl
  size := rfl
  change _ := .same _
  links id record record' h h' := by
    obtain rfl := Option.some.inj (h.symm.trans h')
    exact ⟨rfl, rfl⟩

/-- A mark other than the one for the delegations. -/
def movesRecord : LedgerCall → Bool
  | .begin .. | .markDelegating .. => false
  | .markPlanning .. | .markSynthesizing .. | .markCompleted .. |
    .markFailed .. | .markUnknown .. => true

/-- An insertion in the place of a record keeps the operations. -/
theorem contains_replace {records : Records} {id : String} {record : RoomOrchestrationRecord}
    (h : records[id]? = some record) (other : RoomOrchestrationRecord) :
    (∀ id', (records.insert id other).contains id' = records.contains id') ∧
      (records.insert id other).size = records.size := by
  have hcontains : records.contains id = true := by
    rw [ExtTreeMap.contains_eq_isSome_getElem?, h]
    rfl
  refine ⟨fun id' => ?_, ?_⟩
  · rw [ExtTreeMap.contains_insert]
    by_cases hid : compare id id' = .eq
    · obtain rfl := LawfulEqCmp.eq_of_compare hid
      simp [hcontains]
    · simp [hid]
  · rw [ExtTreeMap.size_insert]
    exact if_pos hcontains

/-- Every call keeps the file and the records together. -/
theorem call_file (hserde : serde.RoundTrips)
    (hfile : FileHolds serde ledger.records ledger.world.dir) (call : LedgerCall) :
    FileHolds serde (call.run serde faults ledger).2.records
      (call.run serde faults ledger).2.world.dir := by
  have hends := @LedgerCall.ends serde faults ledger hserde hfile call
  rcases hrun : call.run serde faults ledger with ⟨outcome, after⟩
  rw [hrun] at hends
  cases hends with
  | kept _ world hfile' => exact hfile'
  | stepped next world hstep hfile' => exact hfile'

/-- Every mark but the one for the delegations takes such a step. -/
theorem mark_step (hserde : serde.RoundTrips)
    (hfile : FileHolds serde ledger.records ledger.world.dir) {call : LedgerCall}
    (hmark : movesRecord call = true) :
    MarkStep ledger.records (call.run serde faults ledger).2.records := by
  have hends := @LedgerCall.ends serde faults ledger hserde hfile call
  rcases hrun : call.run serde faults ledger with ⟨outcome, after⟩
  rw [hrun] at hends
  cases hends with
  | kept _ world hfile' => exact markStep_refl _
  | stepped next world hstep hfile' =>
    have hchange := hstep.change hfile.valid
    cases hstep with
    | reserve => cases hmark
    | delegate => cases hmark
    | move _ operationId current stage updatedAt hcurrent hedge hstage =>
      obtain ⟨hcontains, hsize⟩ := contains_replace hcurrent { current with stage, updatedAt }
      refine ⟨hcontains, hsize, hchange, fun id record record' hrecord hrecord' => ?_⟩
      rw [ExtTreeMap.getElem?_insert] at hrecord'
      split at hrecord'
      · rename_i hid
        obtain rfl := LawfulEqCmp.eq_of_compare hid
        obtain rfl := Option.some.inj (hcurrent.symm.trans hrecord)
        obtain rfl := Option.some.inj hrecord'
        exact ⟨rfl, rfl⟩
      · obtain rfl := Option.some.inj (hrecord.symm.trans hrecord')
        exact ⟨rfl, rfl⟩

/-- What holds at every moment still holds after such a step. -/
theorem Good.step (h : Good serde { ledger, events }) {after : DesktopRoomOrchestrationLedger}
    (hfile : FileHolds serde after.records after.world.dir)
    (hstep : MarkStep ledger.records after.records) : Good serde { ledger := after, events } where
  file := hfile
  tracks id := by
    refine (h.tracks id).change (hstep.change id) (fun hnone => ?_) (hstep.links id)
    have hcontains := hstep.contains id
    rw [ExtTreeMap.contains_eq_isSome_getElem?, ExtTreeMap.contains_eq_isSome_getElem?,
      hnone] at hcontains
    exact Option.not_isSome_iff_eq_none.mp (by simp [hcontains])
  earlier := h.earlier
  reserved id hcontains := h.reserved id (by rwa [← hstep.contains id])
  begun := h.begun
  size := by
    show after.records.size ≤ _
    rw [hstep.size]
    exact h.size
  once hroom id := by
    show events.count (.reserved id) = if after.records.contains id then 1 else 0
    rw [hstep.contains id]
    exact h.once hroom id

/-- A mark keeps what holds at every moment. -/
theorem Good.mark (h : Good serde { ledger, events }) (hserde : serde.RoundTrips)
    {call : LedgerCall}
    (hmark : movesRecord call = true) :
    Good serde { ledger := (call.run serde faults ledger).2, events } :=
  h.step (call_file hserde h.file call) (mark_step hserde h.file hmark)

/-- How a begin ends: with a new record, with the one that is there, or with the records as they
were. -/
inductive BeginEnds (ledger : DesktopRoomOrchestrationLedger) :
    Outcome RoomOrchestrationLedgerError RoomOrchestrationBegin ×
      DesktopRoomOrchestrationLedger → Prop
  | reserved (record : RoomOrchestrationRecord) (after : DesktopRoomOrchestrationLedger)
    (hfresh : ledger.records[record.operationId]? = none) (hstage : record.stage = .prepared)
    (hempty : record.delegations = [] ∧ record.conductorSessionId = none)
    (hnext : after.records =
      (pruneTerminalRecord ledger.records).insert record.operationId record) :
    BeginEnds ledger (.done (.reserved record), after)
  | existing (record : RoomOrchestrationRecord)
    (hrecord : ledger.records[record.operationId]? = some record) :
    BeginEnds ledger (.done (.existing record), ledger)
  | failed (e : RoomOrchestrationLedgerError) (after : DesktopRoomOrchestrationLedger)
    (hkept : after.records = ledger.records) : BeginEnds ledger (.error e, after)
  | cut (after : DesktopRoomOrchestrationLedger) (hkept : after.records = ledger.records) :
    BeginEnds ledger (.cut, after)

/-- A begin ends in one of these ways. -/
theorem begin_cases (roomId sourceMessageId conductorId updatedAt : String) :
    BeginEnds ledger
      (RoomOrchestrationLedger.begin serde faults roomId sourceMessageId
        conductorId updatedAt ledger) := by
  unfold RoomOrchestrationLedger.begin
  -- Before the commit, every answer leaves the ledger.
  rcases ConductorOperationIds.derive sourceMessageId conductorId with e | ids
  · exact .failed _ _ rfl
  dsimp only
  generalize hrecord : preparedRecord ids roomId sourceMessageId conductorId updatedAt = record
  rcases validateRecord record with e | _
  · exact .failed _ _ rfl
  dsimp only
  rcases hexisting : ledger.records[record.operationId]? with _ | existing
  · dsimp only
    split_ifs with hfull
    · exact .failed _ _ rfl
    rcases hcommit : commit serde faults
      ((pruneTerminalRecord ledger.records).insert record.operationId record) ledger with
      ⟨_ | _ | _, after⟩
    · exact .reserved record after hexisting (by rw [← hrecord]; rfl)
        (by rw [← hrecord]; exact ⟨rfl, rfl⟩)
        (commit_done hcommit)
    -- A commit that is not done keeps the records.
    · refine .failed _ _ ?_
      have hkept := @commit_kept serde faults ledger
        ((pruneTerminalRecord ledger.records).insert record.operationId record)
      rw [hcommit] at hkept
      exact hkept (by rintro ⟨⟩)
    · refine .cut _ ?_
      have hkept := @commit_kept serde faults ledger
        ((pruneTerminalRecord ledger.records).insert record.operationId record)
      rw [hcommit] at hkept
      exact hkept (by rintro ⟨⟩)
  · dsimp only
    split_ifs with hsame
    -- The same identity means the same operation.
    · refine .existing existing ?_
      simp only [sameIdentity, Bool.and_eq_true, beq_iff_eq] at hsame
      rw [hsame.1.1.1.1]
      exact hexisting
    · exact .failed _ _ rfl

/-- With the same records, in a file that holds them, the same holds. -/
theorem Good.same (h : Good serde { ledger, events }) {after : DesktopRoomOrchestrationLedger}
    (hfile : FileHolds serde after.records after.world.dir)
    (hkept : after.records = ledger.records) :
    Good serde { ledger := after, events } :=
  h.step hfile (by rw [hkept]; exact markStep_refl _)

/-- An operation that is reserved just now has done nothing since. -/
theorem laws_reserved (id : String) (events : List OrchestrationEvent) :
    Laws [] none id (.reserved id :: events) ∧ NotYet .prepared id (.reserved id :: events) := by
  have hgiven : givenPlan id (.reserved id :: events) = none := if_pos rfl
  have hlinks : dispatchedLinks id (.reserved id :: events) = [] := if_pos rfl
  have hsessions : sessions id (.reserved id :: events) = [] := if_pos rfl
  constructor
  · refine ⟨by simp [givenLinks, givenSession, hgiven], by simp, by
      simp [hsessions], by simp, ?_, ?_,
      fun hne => absurd hsessions hne⟩
    · rw [hlinks]
      exact .nil
    · rw [hsessions]
      rintro _ ⟨⟩
  · exact ⟨fun _ => by simp, fun _ => hlinks, fun _ => hsessions, fun _ => by simp⟩

/-- Whether there is a record or not, the laws hold. -/
theorem Tracks.laws {records : Records} {events : List OrchestrationEvent} {id : String}
    (h : Tracks records events id) : ∃ links session, Laws links session id events := by
  unfold Tracks at h
  split at h
  · exact ⟨_, _, h.1⟩
  · exact h

/-- The laws of an operation held at every point before a further event, and they do after it. -/
theorem laws_suffix_cons {events : List OrchestrationEvent} {event : OrchestrationEvent}
    (h : ∀ past, past <:+ events → ∀ id, ∃ links session, Laws links session id past)
    (hnow : ∀ id, ∃ links session, Laws links session id (event :: events)) :
    ∀ past, past <:+ event :: events → ∀ id, ∃ links session, Laws links session id past := by
  intro past hpast
  rcases List.suffix_cons_iff.mp hpast with rfl | hpast
  · exact hnow
  · exact h past hpast

/-- A further event of an operation that was reserved, or by which it is. -/
theorem begun_cons {events : List OrchestrationEvent} {event : OrchestrationEvent}
    (h : ∀ event past, event :: past <:+ events →
      isReserved event = true ∨ .reserved event.operationId ∈ past)
    (hnow : isReserved event = true ∨ .reserved event.operationId ∈ events) :
    ∀ other past, other :: past <:+ event :: events →
      isReserved other = true ∨ .reserved other.operationId ∈ past := by
  intro other past hpast
  rcases List.suffix_cons_iff.mp hpast with heq | hpast
  · obtain ⟨rfl, rfl⟩ := List.cons.inj heq
    exact hnow
  · exact h other past hpast

/-- A record stays where the ledger makes room, unless it is the one that may go. -/
theorem pruneTerminalRecord_cases {records : Records} (hvalid : ValidRecords records)
    (id : String) :
    (pruneTerminalRecord records)[id]? = records[id]? ∨
      (pruneTerminalRecord records)[id]? = none ∧
        ∃ old, records[id]? = some old ∧ isPrunable old = true := by
  rw [pruneTerminalRecord]
  rcases pruneOldest_cases maximumRecords olderThan isPrunable hvalid.key with
    heq | ⟨oldest, old, hold, hprunable, heq⟩
  · rw [heq]
    exact .inl rfl
  · rw [heq, ExtTreeMap.getElem?_erase]
    split
    · rename_i hid
      obtain rfl := LawfulEqCmp.eq_of_compare hid
      exact .inr ⟨rfl, old, hold, hprunable⟩
    · exact .inl rfl

/-- What holds at every moment holds once an operation is reserved. -/
theorem Good.reserve (h : Good serde { ledger, events }) {after : DesktopRoomOrchestrationLedger}
    {record : RoomOrchestrationRecord} (hfile : FileHolds serde after.records after.world.dir)
    (hfresh : ledger.records[record.operationId]? = none) (hstage : record.stage = .prepared)
    (hempty : record.delegations = [] ∧ record.conductorSessionId = none)
    (hnext : after.records =
      (pruneTerminalRecord ledger.records).insert record.operationId record) :
    Good serde { ledger := after, events := .reserved record.operationId :: events } := by
  have hkey := h.file.valid.key
  -- At most one other record goes, and only one that may be pruned.
  have hpruned := pruneOldest_cases maximumRecords olderThan isPrunable hkey
  have htracks : ∀ id, Tracks after.records (.reserved record.operationId :: events) id := by
    intro id
    -- The new record starts its laws afresh; the others keep theirs.
    by_cases hid : record.operationId = id
    · subst hid
      rw [Tracks, hnext, ExtTreeMap.getElem?_insert_self]
      dsimp only
      rw [hstage, hempty.1, hempty.2]
      exact laws_reserved _ _
    · have hother : after.records[id]? = (pruneTerminalRecord ledger.records)[id]? := by
        rw [hnext, ExtTreeMap.getElem?_insert, if_neg fun heq =>
          hid (LawfulEqCmp.eq_of_compare heq)]
      refine @Tracks.other id (.reserved record.operationId) _ _ ?_ hid
      have hkept := pruneTerminalRecord_cases h.file.valid id
      rw [← hother] at hkept
      refine (h.tracks id).change ?_ (fun hnone => ?_) fun current record' hcurrent hrecord' => ?_
      · show RecordChange ledger.records[id]? after.records[id]?
        rcases hkept with hsame | ⟨hgone, old, hold, hprunable⟩
        · rw [hsame]
          exact .same _
        · rw [hgone, hold]
          exact .pruned old hprunable
      · rcases hkept with hsame | ⟨hgone, -⟩
        · exact hsame.trans hnone
        · exact hgone
      · rcases hkept with hsame | ⟨hgone, -⟩
        · obtain rfl := Option.some.inj (hcurrent.symm.trans (hsame.symm.trans hrecord'))
          exact ⟨rfl, rfl⟩
        · cases hgone.symm.trans hrecord'
  refine ⟨hfile, htracks, laws_suffix_cons h.earlier fun id => (htracks id).laws,
    fun id hcontains => ?_, begun_cons h.begun (.inl rfl), ?_, fun hroom id => ?_⟩
  · replace hcontains : after.records.contains id = true := hcontains
    show OrchestrationEvent.reserved id ∈ .reserved record.operationId :: events
    rw [hnext, ExtTreeMap.contains_insert, Bool.or_eq_true, beq_iff_eq] at hcontains
    rcases hcontains with hid | hpruned'
    · rw [LawfulEqCmp.eq_of_compare hid]
      exact List.mem_cons_self
    · refine List.mem_cons_of_mem _ (h.reserved id ?_)
      rw [pruneTerminalRecord] at hpruned'
      rcases hpruned with heq | ⟨oldest, old, hold, hprunable, heq⟩
      · rwa [heq] at hpruned'
      · rw [heq, ExtTreeMap.contains_erase, Bool.and_eq_true] at hpruned'
        exact hpruned'.2
  · have hsize : ledger.records.size ≤ events.countP isReserved := h.size
    have hle : (pruneTerminalRecord ledger.records).size ≤ ledger.records.size := by
      rw [pruneTerminalRecord]
      rcases hpruned with heq | ⟨oldest, old, hold, hprunable, heq⟩
      · rw [heq]
      · rw [heq]
        exact ExtTreeMap.size_erase_le
    show after.records.size ≤ _
    rw [hnext, ExtTreeMap.size_insert]
    simp only [List.countP_cons, isReserved]
    split <;> simp <;> omega
  -- While there is room for every reservation, nothing is pruned.
  · have hsize : ledger.records.size ≤ events.countP isReserved := h.size
    have hcount : events.countP isReserved + 1 ≤ maximumRecords := by
      simpa [List.countP_cons, isReserved] using hroom
    have hold := h.once (Nat.le_of_succ_le hcount) id
    have hkept : pruneTerminalRecord ledger.records = ledger.records :=
      pruneOldest_eq_self hkey (.inl (by omega))
    show List.count _ (.reserved record.operationId :: events) =
      if after.records.contains id then 1 else 0
    rw [hnext, hkept, ExtTreeMap.contains_insert, List.count_cons, hold]
    by_cases hid : record.operationId = id
    · subst hid
      simp [ExtTreeMap.contains_eq_isSome_getElem?, hfresh]
    · have hne : ¬compare record.operationId id = .eq := fun heq =>
        hid (LawfulEqCmp.eq_of_compare heq)
      simp [hid, hne]

end Ledger

/-! ## The parts of an orchestration -/

/-- From `pre` the part ends with `post`, and wherever it ends, what holds at every moment does. -/
def Runs (env : Environment) (others : ℕ → Stores → Stores) {α : Type} (pre : Own → Prop)
    (part : OrchestrationProg α) (post : α → Own → Prop) : Prop :=
  Thread.Triple others Stores.own pre part post (fun _ => Good env.ledgerSerde)
    (Good env.ledgerSerde)

/-- The part leaves what is the orchestration's own as it is. -/
def Quiet (env : Environment) (others : ℕ → Stores → Stores)
    {α : Type} (part : OrchestrationProg α) :
    Prop :=
  ∀ pre : Own → Prop, (∀ own, pre own → Good env.ledgerSerde own) →
    Runs env others pre part fun _ => pre

/-- The record of the operation is at a stage, with its delegations and its session, and some of
what it has done is known. -/
structure At (env : Environment) (id : String) (stage : ConductorOperationStage)
    (links : List OrchestrationDelegationLink) (session : Option String)
    (did : List OrchestrationEvent → Prop) (own : Own) : Prop where
  good : Good env.ledgerSerde own
  record : ∃ record, own.ledger.records[id]? = some record ∧ record.stage = stage ∧
    record.delegations = links ∧ record.conductorSessionId = session
  did : did own.events

/-- What is known once the ledger has answered to a mark. -/
def Marked (env : Environment) (id : String) (stage : ConductorOperationStage)
    (links : List OrchestrationDelegationLink) (session : Option String)
    (did : List OrchestrationEvent → Prop) : Except RoomOrchestrationLedgerError Unit → Own → Prop
  | .ok () => At env id stage links session did
  | .error _ => Good env.ledgerSerde

section Parts

variable {env : Environment} {others : ℕ → Stores → Stores} {α β : Type} {id : String}
  {stage : ConductorOperationStage} {links : List OrchestrationDelegationLink}
    {session : Option String}
  {did did' : List OrchestrationEvent → Prop} {pre : Own → Prop} {post : α → Own → Prop}

/-- Of an operation at a stage the laws hold, and what comes later is not done. -/
theorem At.laws {own : Own} (h : At env id stage links session did own) :
    Laws links session id own.events ∧ NotYet stage id own.events := by
  obtain ⟨record, hrecord, rfl, rfl, rfl⟩ := h.record
  have htracks := h.good.tracks id
  rw [Tracks, hrecord] at htracks
  exact htracks

/-- A part that only returns. -/
theorem runs_pure {a : α} (h : ∀ own, pre own → post a own) : Runs env others pre (pure a) post :=
  Thread.triple_pure h

/-- A part that leaves with an error. -/
theorem runs_giveUp {error : RoomOrchestrationCommandError}
    (h : ∀ own, pre own → Good env.ledgerSerde own) : Runs env others pre (giveUp error) post :=
  Thread.triple_exit h

/-- A part that leaves with a result. -/
theorem runs_answer {operationId : String} {status : RoomOrchestration.RoomOrchestrationStatus}
    {message : Option RoomMessage} (h : ∀ own, pre own → Good env.ledgerSerde own) :
    Runs env others pre (answer operationId status message) post :=
  Thread.triple_exit h

/-- Two parts, one after the other. -/
theorem runs_bind {part : OrchestrationProg α} {next : α → OrchestrationProg β}
    {last : β → Own → Prop} (hpart : Runs env others pre part post)
    (hnext : ∀ a, Runs env others (post a) (next a) last) :
    Runs env others pre (part >>= next) last :=
  Thread.triple_bind hpart hnext

/-- More may be asked before, and less promised after. -/
theorem Runs.mono {pre' : Own → Prop} {post' : α → Own → Prop} {part : OrchestrationProg α}
    (h : Runs env others pre part post) (hpre : ∀ own, pre' own → pre own)
    (hpost : ∀ a own, post a own → post' a own) : Runs env others pre' part post' :=
  Thread.Triple.mono h hpre hpost (fun _ _ h => h) fun _ h => h

/-- A part that only returns is quiet. -/
theorem quiet_pure {a : α} : Quiet env others (pure a : OrchestrationProg α) :=
  fun _ _ => runs_pure fun _ h => h

/-- A part that leaves with an error is quiet. -/
theorem quiet_giveUp {error : RoomOrchestrationCommandError} :
    Quiet env others (giveUp error : OrchestrationProg α) :=
  fun _ hgood => runs_giveUp hgood

/-- Two quiet parts, one after the other. -/
theorem quiet_bind {part : OrchestrationProg α} {next : α → OrchestrationProg β}
    (hpart : Quiet env others part) (hnext : ∀ a, Quiet env others (next a)) :
    Quiet env others (part >>= next) :=
  fun pre hgood => runs_bind (hpart pre hgood) fun a => hnext a pre hgood

/-- A choice between quiet parts. -/
theorem quiet_ite {c : Prop} [Decidable c] {part other : OrchestrationProg α}
    (hpart : Quiet env others part) (hother : Quiet env others other) :
    Quiet env others (if c then part else other) :=
  fun pre hgood => Thread.triple_ite (fun _ => hpart pre hgood) fun _ => hother pre hgood

/-- What an event of the operation makes of what is known. -/
def Makes (event : OrchestrationEvent) (stage : ConductorOperationStage)
    (links : List OrchestrationDelegationLink) (session : Option String) (id : String)
    (did did' : List OrchestrationEvent → Prop) : Prop :=
  ∀ events, Laws links session id events → NotYet stage id events → did events →
    Laws links session id (event :: events) ∧ NotYet stage id (event :: events) ∧
      did' (event :: events)

/-- An event of the operation, other than that it is reserved. -/
theorem At.event {own : Own} {event : OrchestrationEvent}
    (h : At env id stage links session did own)
    (hid : event.operationId = id) (hevent : isReserved event = false)
    (hmakes : Makes event stage links session id did did') :
    At env id stage links session did' { own with events := event :: own.events } := by
  obtain ⟨hlaws, hnot⟩ := h.laws
  obtain ⟨hlaws', hnot', hdid'⟩ := hmakes own.events hlaws hnot h.did
  have hreserved : ∀ other, (event :: own.events).count (.reserved other) =
      own.events.count (.reserved other) := fun other =>
    List.count_cons_of_ne (by rintro rfl; cases hevent)
  -- The event reserves nothing, so the counts of reservations stay.
  have hcount : (event :: own.events).countP isReserved = own.events.countP isReserved :=
    List.countP_cons_of_neg (by simp [hevent])
  have htracks : ∀ other, Tracks own.ledger.records (event :: own.events) other := by
    intro other
    -- The event counts for its own operation alone.
    by_cases hother : event.operationId = other
    · obtain rfl : id = other := hid.symm.trans hother
      obtain ⟨record, hrecord, rfl, rfl, rfl⟩ := h.record
      rw [Tracks, hrecord]
      exact ⟨hlaws', hnot'⟩
    · exact (h.good.tracks other).other hother
  -- It is an event of an operation that was reserved, as its record is there.
  have hrecorded : .reserved event.operationId ∈ own.events := by
    obtain ⟨record, hrecord, -⟩ := h.record
    refine h.good.reserved _ ?_
    rw [hid, ExtTreeMap.contains_eq_isSome_getElem?, hrecord]
    rfl
  refine ⟨⟨h.good.file, htracks, laws_suffix_cons h.good.earlier fun other => (htracks other).laws,
    fun other hcontains => List.mem_cons_of_mem _ (h.good.reserved other hcontains),
    begun_cons h.good.begun (.inr hrecorded), ?_, fun hroom other => ?_⟩, h.record, hdid'⟩
  · rw [hcount]
    exact h.good.size
  · rw [hreserved]
    rw [hcount] at hroom
    exact h.good.once hroom other

/-- A mark moves the record of the operation. -/
theorem At.move {ledger after : DesktopRoomOrchestrationLedger} {events : List OrchestrationEvent}
    {next : ConductorOperationStage} {updatedAt : String}
    (h : At env id stage links session did { ledger, events })
    (hgood : Good env.ledgerSerde { ledger := after, events })
    (hafter : ∀ record, ledger.records[id]? = some record → record.stage = stage →
      after.records = ledger.records.insert id { record with stage := next, updatedAt }) :
    At env id next links session did { ledger := after, events } := by
  obtain ⟨record, hrecord, hstage, hlinks, hsession⟩ := h.record
  refine ⟨hgood, ⟨{ record with stage := next, updatedAt }, ?_, rfl, hlinks, hsession⟩, h.did⟩
  show after.records[id]? = _
  rw [hafter record hrecord hstage, ExtTreeMap.getElem?_insert_self]

/-- The mark for the delegations that returns has set them and the session. -/
theorem At.delegate {ledger after : DesktopRoomOrchestrationLedger}
    {events : List OrchestrationEvent}
    {sessionId updatedAt : String} {planned : List OrchestrationDelegationLink}
    {faults : List Fault}
    (hserde : env.ledgerSerde.RoundTrips)
    (h : At env id .planning links session did { ledger, events })
    (hrun : (LedgerCall.markDelegating id sessionId planned updatedAt).run
      env.ledgerSerde faults ledger =
      (.done (), after)) :
    At env id .delegating planned (some sessionId) (fun _ => True)
      { ledger := after, events := .delegated id sessionId planned :: events } := by
  obtain ⟨hlaws, hnot⟩ := h.laws
  obtain ⟨record, hrecord, hstage, -, -⟩ := h.record
  have hrecord' : ledger.records[id]? = some record := hrecord
  have hnext := markDelegating_done hrun hrecord' (by rw [hstage]; rintro ⟨⟩)
  have hfile := @call_file _ faults ledger hserde h.good.file
    (.markDelegating id sessionId planned updatedAt)
  rw [hrun] at hfile
  obtain ⟨hcontains, hsize⟩ := contains_replace hrecord'
    { record with
      conductorSessionId := some sessionId, delegations := planned, stage :=
        .delegating, updatedAt }
  -- The delegations are set once, as nothing was dispatched for them yet.
  have hlaws' : Laws planned (some sessionId) id (.delegated id sessionId planned :: events) :=
    hlaws.delegate (hnot.dispatched (.inr rfl))
      (hnot.synthesized (.inr (.inl rfl))) sessionId planned
  have htracks : ∀ other,
    Tracks after.records (.delegated id sessionId planned :: events) other := by
    intro other
    by_cases hother : id = other
    · subst hother
      -- Nothing is saved before the synthesis.
      rw [Tracks, hnext, ExtTreeMap.getElem?_insert_self]
      refine ⟨hlaws', ⟨by rintro ⟨⟩, ?_, fun _ => hnot.synthesized (.inr (.inl rfl)), fun _ => ?_⟩⟩
      · rintro (h | h) <;> cases h
      · have hsaved := hnot.saved (.inr (.inl rfl))
        rw [sinceReserved_cons (by rintro ⟨⟩), List.count_cons_of_ne (by rintro ⟨⟩)]
        exact hsaved
    · refine Tracks.other ?_ hother
      have hkept : after.records[other]? = ledger.records[other]? := by
        rw [hnext, ExtTreeMap.getElem?_insert, if_neg fun heq =>
          hother (LawfulEqCmp.eq_of_compare heq)]
      have htracks := h.good.tracks other
      rwa [Tracks, ← hkept] at htracks
  refine ⟨⟨hfile, htracks, laws_suffix_cons h.good.earlier fun other => (htracks other).laws,
    fun other hother => ?_, begun_cons h.good.begun (.inr ?_), ?_, fun hroom other => ?_⟩,
      ?_, trivial⟩
  · refine List.mem_cons_of_mem _ (h.good.reserved other ?_)
    show ledger.records.contains other = true
    rw [← hcontains other, ← hnext]
    exact hother
  -- The mark is of a record that was reserved.
  · refine h.good.reserved id ?_
    rw [ExtTreeMap.contains_eq_isSome_getElem?, hrecord]
    rfl
  · show after.records.size ≤ _
    rw [hnext, hsize]
    exact h.good.size
  · show List.count _ (.delegated id sessionId planned :: events) =
      if after.records.contains other then 1 else 0
    rw [List.count_cons_of_ne (by rintro ⟨⟩), hnext, hcontains other]
    exact h.good.once hroom other
  · refine ⟨{ record with
        conductorSessionId := some sessionId
        delegations := planned
        stage := .delegating
        updatedAt }, ?_, rfl, rfl, rfl⟩
    show after.records[id]? = _
    rw [hnext, ExtTreeMap.getElem?_insert_self]

/-- Nothing is said of what is not done yet once the answer is there. -/
theorem notYet_synthesizing (id : String) (events : List OrchestrationEvent) :
    NotYet .synthesizing id events := by
  constructor <;> intro h <;> simp at h

section Steps

variable (hown : Thread.Own others Stores.own)

include hown

/-- A step that leaves what is the orchestration's own is quiet. -/
theorem quiet_rest {act : ℕ → Stores → Outcome (Except RoomOrchestrationCommandError
    RoomOrchestrationResult) α × Stores}
    (hact : ∀ moment stores, (act moment stores).2.own = stores.own) :
    Quiet env others (Thread.step act) :=
  fun _ hgood => Thread.triple_rest hown hact (fun _ _ h => h) (fun _ => hgood) hgood

/-- A look is quiet. -/
theorem look_quiet {f : ℕ → Stores → α} : Quiet env others (look env f) :=
  quiet_rest hown fun _ _ => rfl

/-- Reading the time is quiet. -/
theorem timestamp_quiet : Quiet env others (timestamp env) := by
  refine quiet_bind (look_quiet hown) fun now => ?_
  cases now with
  | none => exact quiet_giveUp
  | some now => exact quiet_pure

/-- Looking for a message is quiet. -/
theorem find_quiet (roomId messageId : String) : Quiet env others (find env roomId messageId) :=
  look_quiet hown

/-- Looking for a message or leaving without it is quiet. -/
theorem findOrLeave_quiet (roomId messageId : String) :
    Quiet env others (findOrLeave env roomId messageId) := by
  refine quiet_bind (find_quiet hown roomId messageId) fun found => ?_
  cases found with
  | ok message => exact quiet_pure
  | error e => exact quiet_giveUp

/-- Taking a conductor away is quiet. -/
theorem clearSettings_quiet (roomId : String) : Quiet env others (clearSettings env roomId) := by
  refine quiet_rest hown fun moment stores => ?_
  dsimp only
  rcases RoomConductorSettings.clear env.settingsSerde
    (env.faults moment) roomId stores.shared.settings
    with ⟨_ | _ | _, settings⟩ <;> rfl

/-- The status of a room is found, and maybe cleared, without the ledger. -/
theorem roomStatus_quiet (roomId : String) : Quiet env others (roomStatus env roomId) := by
  refine quiet_bind (look_quiet hown) fun context => ?_
  rcases context with (_ | _ | _ | _) | context
  case error.roomNotFound =>
    refine quiet_bind (clearSettings_quiet hown roomId) fun cleared => ?_
    cases cleared with
    | ok status => exact quiet_pure
    | error e => exact quiet_pure
  case ok =>
    refine quiet_bind (look_quiet hown) fun status => ?_
    cases status with
    | error e => exact quiet_pure
    | ok status =>
      dsimp only
      cases status.conductorId with
      | none => exact quiet_pure
      | some conductorId => exact quiet_ite quiet_pure (clearSettings_quiet hown roomId)
  all_goals exact quiet_pure

/-- Looking up the conductor is quiet. -/
theorem configuredConductor_quiet (roomId : String) :
    Quiet env others (configuredConductor env roomId) := by
  refine quiet_bind (roomStatus_quiet hown roomId) fun configured => ?_
  cases configured with
  | error e => exact quiet_giveUp
  | ok configured =>
    dsimp only
    cases configured.conductorId with
    | none => exact quiet_giveUp
    | some conductorId => exact quiet_ite quiet_giveUp (quiet_ite quiet_giveUp quiet_pure)

/-- The checks of the owner's message are quiet. -/
theorem ownerMessage_quiet (roomId sourceMessageId conductorId : String) :
    Quiet env others (ownerMessage env roomId sourceMessageId conductorId) :=
  quiet_bind (findOrLeave_quiet hown roomId sourceMessageId) fun _ =>
    quiet_bind (look_quiet hown) fun _ => quiet_ite quiet_giveUp quiet_pure

/-- Appending a message is quiet when it stands for no event. -/
theorem append_quiet (draft : RoomMessageDraft) : Quiet env others (append env [] draft) := by
  refine quiet_rest hown fun moment stores => ?_
  dsimp only
  rcases (RoomSource.appendMessage env.roomSerde draft stores.shared.rooms).run (env.faults moment)
    stores.shared.roomWorld with ⟨⟨answer, rooms⟩ | _ | _, roomWorld⟩ <;> rfl

/-- Saving a delegation is quiet. -/
theorem saveDelegation_quiet (roomId conductorId : String) (state : ConductorDelegationState) :
    Quiet env others (saveDelegation env roomId conductorId state) := by
  refine quiet_bind (timestamp_quiet hown) fun createdAt => ?_
  split
  · exact quiet_giveUp
  · refine quiet_bind (append_quiet hown _) fun saved => ?_
    cases saved with
    | error e => exact quiet_giveUp
    | ok saved => exact quiet_ite quiet_giveUp quiet_pure

/-- Saving the delegations is quiet. -/
theorem saveDelegations_quiet (roomId conductorId : String)
    (states : List ConductorDelegationState) :
    Quiet env others (saveDelegations env roomId conductorId states) := by
  induction states with
  | nil => exact quiet_pure
  | cons state states ih =>
    exact quiet_bind (saveDelegation_quiet hown roomId conductorId state) fun _ =>
      quiet_bind ih fun _ => quiet_pure

/-- An action adds its event, and what is known goes on from there. -/
theorem act_runs {event : OrchestrationEvent} {given : ℕ → α} (hid : event.operationId = id)
    (hevent : isReserved event = false) (hmakes : Makes event stage links session id did did') :
    Runs env others (At env id stage links session did) (act env event given)
      fun _ => At env id stage links session did' := by
  refine Thread.triple_step hown fun moment stores h => ?_
  have hafter := h.event hid hevent hmakes
  by_cases hstops : env.stops moment = true
  · rw [if_pos hstops]
    exact hafter.good
  · rw [if_neg hstops]
    exact hafter

/-- The final message is handed to the Room store, which may stop the process. -/
theorem append_runs {event : OrchestrationEvent} {draft : RoomMessageDraft}
    (hid : event.operationId = id) (hevent : isReserved event = false)
    (hmakes : Makes event stage links session id did did') :
    Runs env others (At env id stage links session did) (append env [event] draft)
      fun _ => At env id stage links session did' := by
  refine Thread.triple_step hown fun moment stores h => ?_
  have hafter := h.event hid hevent hmakes
  dsimp only
  rcases (RoomSource.appendMessage env.roomSerde draft stores.shared.rooms).run (env.faults moment)
    stores.shared.roomWorld with ⟨⟨answer, rooms⟩ | _ | _, roomWorld⟩
  · exact hafter
  · exact hafter
  · exact hafter.good

/-- A worker is called with the next delegation of the round. -/
theorem dispatchDelegation_runs {roomId conductorId : String} {link : OrchestrationDelegationLink}
    {before done rest : List OrchestrationDelegationLink} (hbefore : Rounds links before)
    (hlinks : links = done ++ link :: rest) :
    Runs env others
      (At env id .delegating links session fun events => dispatchedLinks id events = before ++ done)
      (dispatchDelegation env roomId conductorId id link)
      fun _ => At env id .delegating links session fun events =>
        dispatchedLinks id events = before ++ (done ++ [link]) := by
  refine runs_bind (findOrLeave_quiet hown _ _ _ fun _ h => h.good) fun delegation => ?_
  refine Thread.triple_ite (fun _ => runs_giveUp fun _ h => h.good) fun _ => ?_
  refine runs_bind (act_runs hown rfl rfl fun events hlaws hnot hdid => ?_) fun _ =>
    runs_pure fun _ h => h
  have htake : done ++ [link] = links.take (done.length + 1) := by
    rw [hlinks, List.append_cons done link rest, List.take_left' (by simp)]
  have hdispatched : dispatchedLinks id (.dispatched id link :: events) = before ++
    (done ++ [link]) := by
    rw [dispatchedLinks, if_pos rfl, hdid, List.append_assoc]
  have hsessions := hnot.synthesized (.inr (.inr rfl))
  have hsince : sinceReserved id (.dispatched id link :: events) =
      .dispatched id link :: sinceReserved id events := sinceReserved_cons (by rintro ⟨⟩) events
  refine ⟨⟨hlaws.given, ?_, hlaws.synthesized, ?_, ?_, hlaws.session,
    fun hne => absurd hsessions hne⟩,
    ⟨by rintro ⟨⟩, ?_, fun _ => hsessions, fun _ => ?_⟩, hdispatched⟩
  · simpa [hsince, List.count_cons] using hlaws.planned
  · simpa [hsince, List.count_cons] using hlaws.saved
  · rw [hdispatched, htake]
    exact .round _ hbefore
  · rintro (h | h) <;> cases h
  · simpa [hsince, List.count_cons] using hnot.saved (.inr (.inr rfl))

/-- A round goes through the delegations that are left. -/
theorem dispatchDelegations_runs {roomId conductorId : String}
    {before done rest : List OrchestrationDelegationLink} (hbefore : Rounds links before)
    (hlinks : links = done ++ rest) :
    Runs env others
      (At env id .delegating links session fun events => dispatchedLinks id events = before ++ done)
      (dispatchDelegations env roomId conductorId id rest)
      fun _ => At env id .delegating links session fun events =>
        dispatchedLinks id events = before ++ links := by
  induction rest generalizing done with
  | nil =>
    rw [List.append_nil] at hlinks
    subst hlinks
    exact runs_pure fun _ h => h
  | cons link rest ih =>
    refine runs_bind (dispatchDelegation_runs hown hbefore hlinks) fun first => ?_
    exact runs_bind (ih (by rw [hlinks, List.append_assoc, List.singleton_append])) fun _ =>
      runs_pure fun _ h => h

/-- The rounds that were begun, and one more. -/
theorem round_runs {roomId conductorId : String} :
    Runs env others (At env id .delegating links session fun _ => True)
      (dispatchDelegations env roomId conductorId id links)
      fun _ => At env id .delegating links session fun events =>
        ∃ before, Rounds links before ∧ dispatchedLinks id events = before ++ links := by
  have hsplit : ∀ own, At env id .delegating links session (fun _ => True) own →
      ∃ before, Rounds links before ∧
        At env id .delegating links session (fun events => dispatchedLinks id events =
          before ++ []) own :=
    fun own h => ⟨_, h.laws.1.rounds, h.good, h.record, (List.append_nil _).symm⟩
  refine Runs.mono (Thread.triple_exists fun before => Thread.triple_and fun hbefore =>
    (@dispatchDelegations_runs env others id links session hown roomId conductorId before
      [] links hbefore
      (List.nil_append links).symm).mono (fun _ h => h) fun _ _ h =>
        ⟨h.good, h.record, before, hbefore, h.did⟩)
    hsplit fun _ _ h => h

variable (hserde : env.ledgerSerde.RoundTrips)

include hserde

/-- A call of the ledger whose answer is not looked at. -/
theorem ledgerStep_runs {call : LedgerCall} (hmark : movesRecord call = true) :
    Runs env others (Good env.ledgerSerde) (ledgerStep env [] call) fun _ =>
      Good env.ledgerSerde := by
  refine Thread.triple_step hown fun moment stores h => ?_
  have hafter :=
    @Good.mark _ (env.faults moment) stores.own.ledger stores.own.events h hserde _ hmark
  rcases hrun : call.run env.ledgerSerde (env.faults moment) stores.own.ledger with ⟨_ |
    _ | _, after⟩
  all_goals
    rw [hrun] at hafter
    exact hafter

/-- A mark whose answer is not looked at keeps what is good. -/
theorem tryMark_runs {call : String → LedgerCall} (hmark : ∀ now, movesRecord (call now) = true) :
    Runs env others (Good env.ledgerSerde) (tryMark env call) fun _ => Good env.ledgerSerde := by
  refine runs_bind (look_quiet hown _ fun _ h => h) fun now => ?_
  cases now with
  | none => exact runs_pure fun _ h => h
  | some now =>
    exact runs_bind (ledgerStep_runs hown hserde (hmark now)) fun _ => runs_pure fun _ h => h

/-- An end that is marked, whatever the ledger answers to it. -/
theorem tryMark_answer {call : String → LedgerCall} (hmark : ∀ now, movesRecord (call now) = true)
    {status : RoomOrchestration.RoomOrchestrationStatus} {message : Option RoomMessage}
    (h : ∀ own, pre own → Good env.ledgerSerde own) :
    Runs env others pre (tryMark env call >>= fun _ => answer id status message) post :=
  runs_bind ((tryMark_runs hown hserde hmark).mono h fun _ _ h => h) fun _ =>
    runs_answer fun _ h => h

/-- A mark moves the record, or the orchestration is over. -/
theorem mark_runs {call : String → LedgerCall} {next : ConductorOperationStage}
    (hmark : ∀ now, movesRecord (call now) = true)
    (hdone : ∀ now faults ledger after record,
      (call now).run env.ledgerSerde faults ledger = (.done (), after) →
      ledger.records[id]? = some record → record.stage = stage →
      after.records = ledger.records.insert id { record with stage := next, updatedAt := now }) :
    Runs env others (At env id stage links session did) (mark env [] call)
      fun _ => At env id next links session did := by
  refine runs_bind (timestamp_quiet hown _ fun _ h => h.good) fun now => ?_
  have hstep : Runs env others (At env id stage links session did) (ledgerStep env [] (call now))
      (Marked env id next links session did) := by
    refine Thread.triple_step hown fun moment stores h => ?_
    have hafter :=
      @Good.mark _ (env.faults moment) stores.own.ledger stores.own.events h.good hserde _
      (hmark now)
    rcases hrun : (call now).run env.ledgerSerde (env.faults moment) stores.own.ledger with
      ⟨_ | _ | _, after⟩
    all_goals rw [hrun] at hafter
    · exact At.move h hafter fun record hrecord hstage =>
        hdone now _ _ after record hrun hrecord hstage
    · exact hafter
    · exact hafter
  refine runs_bind hstep fun answer => ?_
  cases answer with
  | ok => exact runs_pure fun _ h => h
  | error e => exact runs_giveUp fun _ h => h

/-- A turn that is registered runs as the turn itself. -/
theorem registered_runs {roomId dispatchId operationId : String} {turn : OrchestrationProg α}
    (hpre : ∀ own, pre own → Good env.ledgerSerde own) (hturn : Runs env others pre turn post) :
    Runs env others pre (registered env roomId dispatchId operationId turn) post := by
  refine runs_bind (quiet_rest hown (fun moment stores => ?_) pre hpre) fun isRegistered => ?_
  · dsimp only
    split
    · rfl
    · cases TurnCancellation.register roomId dispatchId stores.shared.active <;> rfl
  · refine Thread.triple_ite (fun _ => ?_) fun _ => Thread.triple_finallyDo hown ?_ hturn
    · exact runs_bind ((tryMark_runs hown hserde fun _ => rfl).mono hpre fun _ _ h => h) fun _ =>
        runs_giveUp fun _ h => h
    · exact fun _ => rfl

/-- The final answer is saved once. -/
theorem saveFinal_runs {record : RoomOrchestrationRecord} {conductorId ownerId text : String} :
    Runs env others
      (At env record.operationId .synthesizing links session fun events =>
        (sinceReserved record.operationId events).count (.saved record.operationId) = 0)
      (saveFinal env record conductorId ownerId text) fun _ => Good env.ledgerSerde := by
  refine runs_bind (timestamp_quiet hown _ fun _ h => h.good) fun createdAt => ?_
  split
  · exact tryMark_answer hown hserde (fun _ => rfl) fun _ h => h.good
  refine runs_bind (@append_runs _ _ _ _ _ _ _ (fun _ => True) hown _ _ rfl rfl
    fun events hlaws _ hsaved => ?_) fun answer => ?_
  · have hsince : sinceReserved record.operationId (.saved record.operationId :: events) =
        .saved record.operationId :: sinceReserved record.operationId events :=
      sinceReserved_cons (by rintro ⟨⟩) events
    refine ⟨⟨hlaws.given, ?_, hlaws.synthesized, ?_, hlaws.rounds, hlaws.session, hlaws.complete⟩,
      notYet_synthesizing _ _, trivial⟩
    · simpa [hsince, List.count_cons] using hlaws.planned
    · simp [hsince, hsaved]
  · cases answer with
    | error e => exact tryMark_answer hown hserde (fun _ => rfl) fun _ h => h.good
    | ok saved =>
      refine runs_bind (timestamp_quiet hown _ fun _ h => h.good) fun updatedAt => ?_
      refine runs_bind ((ledgerStep_runs hown hserde rfl).mono (fun _ h => h.good) fun _ _ h => h)
        fun _ => runs_pure fun _ h => h

/-- The answer is asked for after a round through all the delegations. -/
structure Answerable (id : String) (links : List OrchestrationDelegationLink)
    (events : List OrchestrationEvent) : Prop where
  complete : ∃ before, Rounds links before ∧ dispatchedLinks id events = before ++ links
  sessions : sessions id events = []
  saved : (sinceReserved id events).count (.saved id) = 0

/-- The final answer is asked for once. -/
theorem finishSynthesis_runs {sourceMessage : RoomMessage} {conductorId sessionId : String}
    {record : RoomOrchestrationRecord} {outcomes : List WorkerExecutionResult} :
    Runs env others
      (At env record.operationId .delegating links (some sessionId) fun events =>
        ∃ before, Rounds links before ∧ dispatchedLinks record.operationId events = before ++ links)
      (finishSynthesis env sourceMessage conductorId record sessionId outcomes)
      fun _ => Good env.ledgerSerde := by
  -- With all rounds dispatched, the laws say that nothing was answered.
  have hknown : ∀ own, At env record.operationId .delegating links (some sessionId)
      (fun events => ∃ before, Rounds links before ∧
        dispatchedLinks record.operationId events = before ++ links) own →
      At env record.operationId .delegating links (some sessionId)
        (Answerable record.operationId links) own := fun own h => by
    obtain ⟨-, hnot⟩ := h.laws
    exact ⟨h.good, h.record, h.did, hnot.synthesized (.inr (.inr rfl)),
      hnot.saved (.inr (.inr rfl))⟩
  -- The mark keeps the record and what was done, and only moves the stage.
  have hmark : Runs env others
      (At env record.operationId .delegating links (some sessionId)
        (Answerable record.operationId links))
      (mark env [] (.markSynthesizing record.operationId))
      fun _ => At env record.operationId .synthesizing links (some sessionId)
        (Answerable record.operationId links) :=
    mark_runs hown hserde (fun _ => rfl) fun now faults ledger after current hrun hcurrent hstage =>
      transition_done hrun hcurrent (by rw [hstage]; rintro ⟨⟩)
  refine (runs_bind hmark fun _ => ?_).mono hknown fun _ _ h => h
  refine registered_runs hown hserde (fun _ h => h.good) ?_
  refine runs_bind (look_quiet hown _ fun _ h => h.good) fun owner => ?_
  refine @runs_bind _ _ _ _ _ (fun _ =>
    At env record.operationId .synthesizing links (some sessionId)
    fun events => (sinceReserved record.operationId events).count (.saved record.operationId) = 0)
    _ _ _ ?_ fun answer => ?_
  -- Without a valid session the conductor is not asked.
  · refine Thread.triple_ite (fun _ => runs_pure fun _ h =>
      ⟨h.good, h.record, h.did.saved⟩) fun _ => ?_
    refine act_runs hown rfl rfl fun events hlaws _ hdid => ?_
    have hsessions :
      sessions record.operationId (.synthesized record.operationId sessionId :: events) =
        [sessionId] := by
      rw [sessions, if_pos rfl, hdid.sessions]
    have hsince : sinceReserved record.operationId
          (.synthesized record.operationId sessionId :: events) =
        .synthesized record.operationId sessionId :: sinceReserved record.operationId events :=
      sinceReserved_cons (by rintro ⟨⟩) events
    -- This is the first synthesis since the reservation, and it is in the planned session.
    refine ⟨⟨hlaws.given, ?_, ?_, ?_, hlaws.rounds, ?_, fun _ => hdid.complete⟩,
      notYet_synthesizing _ _, ?_⟩
    · simpa [hsince, List.count_cons] using hlaws.planned
    · simp [hsessions]
    · simpa [hsince, List.count_cons] using hlaws.saved
    · rw [hsessions]
      intro other hother
      rw [List.mem_singleton.mp hother]
    · simpa [hsince, List.count_cons] using hdid.saved
  · cases answer with
    | error e => exact tryMark_answer hown hserde (fun _ => rfl) fun _ h => h.good
    | ok text => exact saveFinal_runs hown hserde

/-- With the mark for the delegations, the ledger is given them. -/
theorem markDelegating_runs {sessionId : String} {planned : List OrchestrationDelegationLink} :
    Runs env others (At env id .planning links session fun _ => True)
      (mark env [.delegated id sessionId planned] (.markDelegating id sessionId planned))
      fun _ => At env id .delegating planned (some sessionId) fun _ => True := by
  refine runs_bind (timestamp_quiet hown _ fun _ h => h.good) fun now => ?_
  have hstep : Runs env others (At env id .planning links session fun _ => True)
      (ledgerStep env [.delegated id sessionId planned] (.markDelegating id sessionId planned now))
      (Marked env id .delegating planned (some sessionId) fun _ => True) := by
    refine Thread.triple_step hown fun moment stores h => ?_
    have hfile := @call_file _ (env.faults moment) stores.own.ledger hserde h.good.file
      (.markDelegating id sessionId planned now)
    have hkept :=
      @markDelegating_kept env.ledgerSerde (env.faults moment) stores.own.ledger id sessionId
      now planned
    rcases hrun : (LedgerCall.markDelegating id sessionId planned now).run env.ledgerSerde
      (env.faults moment) stores.own.ledger with ⟨_ | _ | _, after⟩
    all_goals
      have hrun' := hrun
      rw [hrun] at hfile
      simp only [LedgerCall.run] at hrun'
      rw [hrun'] at hkept
    · exact At.delegate hserde h hrun
    · exact @Good.same _ stores.own.ledger stores.own.events h.good _ hfile (hkept (by rintro ⟨⟩))
    · exact @Good.same _ stores.own.ledger stores.own.events h.good _ hfile (hkept (by rintro ⟨⟩))
  refine runs_bind hstep fun answer => ?_
  cases answer with
  | ok => exact runs_pure fun _ h => h
  | error e => exact runs_giveUp fun _ h => h

/-- The recorded delegations are dispatched, and the final answer is asked for. -/
theorem resumeDelegating_runs {sourceMessage : RoomMessage} {conductorId : String}
    {record : RoomOrchestrationRecord} :
    Runs env others
      (At env record.operationId .delegating record.delegations record.conductorSessionId
        fun _ => True)
      (resumeDelegating env sourceMessage conductorId record) fun _ => Good env.ledgerSerde := by
  unfold resumeDelegating
  rcases hsession : record.conductorSessionId.filter validSessionId with _ | sessionId
  · exact runs_giveUp fun _ h => h.good
  · rw [(Option.filter_eq_some_iff.mp hsession).1]
    exact runs_bind (round_runs hown) fun _ => finishSynthesis_runs hown hserde

/-- The plan that answers is saved, and the one that delegates is dispatched. -/
theorem followPlan_runs {sourceMessage : RoomMessage} {conductorId sessionId : String}
    {record : RoomOrchestrationRecord} {accepted : ConductorPlanV1}
    {operation : ConductorOperation} :
    Runs env others (At env record.operationId .planning links session fun _ => True)
      (followPlan env sourceMessage conductorId record sessionId accepted operation)
      fun _ => Good env.ledgerSerde := by
  unfold followPlan
  cases accepted.mode with
  | answer =>
    have hsaved : ∀ own, At env record.operationId .planning links session (fun _ => True) own →
        At env record.operationId .planning links session (fun events =>
          (sinceReserved record.operationId events).count (.saved record.operationId) = 0) own :=
      fun own h => ⟨h.good, h.record, h.laws.2.saved (.inr (.inl rfl))⟩
    refine (runs_bind (@mark_runs _ _ _ _ _ _ _ hown hserde _ .synthesizing (fun _ => rfl)
      fun now faults ledger after current hrun hcurrent hstage => ?_) fun _ => ?_).mono hsaved
        fun _ _ h => h
    · exact transition_done hrun hcurrent (by rw [hstage]; rintro ⟨⟩)
    · cases accepted.directAnswer with
      | none => exact runs_giveUp fun _ h => h.good
      | some text => exact saveFinal_runs hown hserde
  | delegate =>
    refine runs_bind (saveDelegations_quiet hown _ _ _ _ fun _ h => h.good) fun planned => ?_
    refine runs_bind (markDelegating_runs hown hserde) fun _ => ?_
    refine runs_bind (round_runs hown) fun outcomes => ?_
    cases recordOutcomes outcomes operation with
    | none => exact runs_giveUp fun _ h => h.good
    | some operation =>
      exact Thread.triple_ite (fun _ => runs_giveUp fun _ h => h.good)
        fun _ => finishSynthesis_runs hown hserde

/-- Of an operation whose record is prepared. -/
theorem startOperation_runs {sourceMessage : RoomMessage} {conductorId : String}
    {record : RoomOrchestrationRecord} :
    Runs env others (At env record.operationId .prepared links session fun _ => True)
      (startOperation env sourceMessage conductorId record) fun _ => Good env.ledgerSerde := by
  refine runs_bind (look_quiet hown _ fun _ h => h.good) fun context => ?_
  cases context with
  | error e => exact runs_giveUp fun _ h => h.good
  | ok context =>
    dsimp only
    cases conductorParticipants env context with
    | none => exact runs_giveUp fun _ h => h.good
    | some participants =>
      -- A prepared record was not planned since its reservation.
      have hplanned : ∀ own, At env record.operationId .prepared links session (fun _ => True) own →
          At env record.operationId .prepared links session (fun events =>
            (sinceReserved record.operationId events).count
              (.planned record.operationId) = 0) own :=
        fun own h => ⟨h.good, h.record, h.laws.2.planned rfl⟩
      refine (runs_bind (@mark_runs _ _ _ _ _ _ _ hown hserde _ .planning (fun _ => rfl)
        fun now faults ledger after current hrun hcurrent hstage => ?_) fun _ => ?_).mono hplanned
          fun _ _ h => h
      · exact transition_done hrun hcurrent (by rw [hstage]; rintro ⟨⟩)
      refine registered_runs hown hserde (fun _ h => h.good) ?_
      refine runs_bind (look_quiet hown _ fun _ h => h.good) fun prompt => ?_
      refine runs_bind (@act_runs _ _ _ _ _ _ _ _ (fun _ => True) hown _ _ rfl rfl
        fun events hlaws hnot hdid => ?_) fun turn => ?_
      · have hsince : sinceReserved record.operationId (.planned record.operationId :: events) =
            .planned record.operationId :: sinceReserved record.operationId events :=
          sinceReserved_cons (by rintro ⟨⟩) events
        -- The conductor is asked for a plan, for the first time since the reservation.
        refine ⟨⟨hlaws.given, ?_, hlaws.synthesized, ?_, hlaws.rounds,
          hlaws.session, hlaws.complete⟩,
          ⟨by rintro ⟨⟩, fun _ => hnot.dispatched (.inr rfl),
            fun _ => hnot.synthesized (.inr (.inl rfl)), fun _ => ?_⟩, trivial⟩
        · simp [hsince, hdid]
        · simpa [hsince, List.count_cons] using hlaws.saved
        · simpa [hsince, List.count_cons] using hnot.saved (.inr (.inl rfl))
      · cases turn with
        | error e => exact tryMark_answer hown hserde (fun _ => rfl) fun _ h => h.good
        | ok turn =>
          dsimp only
          split
          · exact tryMark_answer hown hserde (fun _ => rfl) fun _ h => h.good
          split
          · exact runs_giveUp fun _ h => h.good
          · exact followPlan_runs hown hserde

/-- The ledger holds the record, as it was returned. -/
structure Recorded (env : Environment) (record : RoomOrchestrationRecord) (own : Own) : Prop where
  good : Good env.ledgerSerde own
  record : own.ledger.records[record.operationId]? = some record

/-- What is done next, by the stage of the record. -/
theorem continueOperation_runs {sourceMessage : RoomMessage} {conductorId : String}
    {record : RoomOrchestrationRecord} :
    Runs env others (Recorded env record) (continueOperation env sourceMessage conductorId record)
      fun _ => Good env.ledgerSerde := by
  have hat : ∀ stage, record.stage = stage → ∀ own, Recorded env record own →
      At env record.operationId stage record.delegations record.conductorSessionId
        (fun _ => True) own :=
    fun stage hstage own h => ⟨h.good, ⟨record, h.record, hstage, rfl, rfl⟩, trivial⟩
  unfold continueOperation
  cases hstage : record.stage with
  | prepared => exact (startOperation_runs hown hserde).mono (hat _ hstage) fun _ _ h => h
  | delegating => exact (resumeDelegating_runs hown hserde).mono (hat _ hstage) fun _ _ h => h
  | completed => exact runs_answer fun _ h => h.good
  | failed => exact runs_answer fun _ h => h.good
  | planning | synthesizing | unknown =>
    exact tryMark_answer hown hserde (fun _ => rfl) fun _ h => h.good

/-- Once the ledger has begun, its record is the one that was returned. -/
theorem begin_runs (roomId sourceMessageId conductorId : String) :
    Runs env others (Good env.ledgerSerde) (begin env roomId sourceMessageId conductorId)
      (Recorded env) := by
  refine runs_bind (timestamp_quiet hown _ fun _ h => h) fun now => ?_
  refine @runs_bind _ _ _ _ _ (fun begun own => Good env.ledgerSerde own ∧
    ∀ record, begun = some record → Recorded env record own) _ _ _ ?_ fun begun => ?_
  -- The ledger is asked at one step, and its three answers are the cases that follow.
  · refine Thread.triple_step hown fun moment stores h => ?_
    have hfile := @call_file _ (env.faults moment) stores.own.ledger hserde h.file
      (.begin roomId sourceMessageId conductorId now)
    simp only [LedgerCall.run] at hfile
    have hcases := @begin_cases env.ledgerSerde (env.faults moment) stores.own.ledger roomId
      sourceMessageId conductorId now
    dsimp only
    rcases hrun : RoomOrchestrationLedger.begin env.ledgerSerde (env.faults moment) roomId
      sourceMessageId conductorId now stores.own.ledger with ⟨(record | record) | e | _, after⟩
    all_goals
      rw [hrun] at hfile hcases
      dsimp only
    · cases hcases with
      | reserved _ _ hfresh hstage hempty hnext =>
        have hgood :=
          @Good.reserve _ stores.own.ledger stores.own.events h _ _ hfile hfresh hstage hempty
          hnext
        refine ⟨hgood, ?_⟩
        rintro _ ⟨⟩
        refine ⟨hgood, ?_⟩
        show after.records[record.operationId]? = some record
        rw [hnext, ExtTreeMap.getElem?_insert_self]
    -- A record that is there is taken up where it is.
    · cases hcases with
      | existing _ hrecord =>
        refine ⟨h, ?_⟩
        rintro _ ⟨⟩
        exact ⟨h, hrecord⟩
    · cases hcases with
      | failed _ _ hkept =>
        refine ⟨@Good.same _ stores.own.ledger _ h _ hfile hkept, ?_⟩
        rintro _ ⟨⟩
    · cases hcases with
      | cut _ hkept => exact @Good.same _ stores.own.ledger _ h _ hfile hkept
  · cases begun with
    | none => exact runs_giveUp fun _ h => h.1
    | some record => exact runs_pure fun _ h => h.2 record rfl

/-- An orchestration keeps what holds at every moment, wherever it ends. -/
theorem orchestrate_runs (roomId sourceMessageId : String) :
    Runs env others (Good env.ledgerSerde) (orchestrate env roomId sourceMessageId)
      fun _ => Good env.ledgerSerde := by
  refine runs_bind (configuredConductor_quiet hown roomId _ fun _ h => h) fun conductorId => ?_
  refine runs_bind (ownerMessage_quiet hown roomId sourceMessageId conductorId _ fun _ h => h)
    fun sourceMessage => ?_
  split
  · exact runs_giveUp fun _ h => h
  refine runs_bind (find_quiet hown _ _ _ fun _ h => h) fun final => ?_
  cases final with
  | ok final =>
    refine Thread.triple_ite (fun _ => runs_giveUp fun _ h => h) fun _ => ?_
    exact runs_bind (tryMark_runs hown hserde fun _ => rfl) fun _ => runs_pure fun _ h => h
  | error e => exact runs_bind (begin_runs hown hserde _ _ _) fun record =>
      continueOperation_runs hown hserde

end Steps

end Parts

/-! ## Runs -/

/-- What can happen: a call, or a new process. -/
inductive Event where
  | orchestrate (roomId sourceMessageId : String)
  | restart (pid : ℕ)

/-- Where a run is, and whether the process is running. -/
structure State where
  now : Instant Stores
  running : Bool

/-- What the others do is to the rest of the stores. -/
def onShared (others : ℕ → Shared → Shared) (moment : ℕ) (stores : Stores) : Stores :=
  { stores with shared := others moment stores.shared }

section Runs

variable (env : Environment) (others : ℕ → Shared → Shared)

/-- What an event leaves. A process stops where it is cut off, and where the start of its ledger
fails. No turn is registered in a new one. -/
def apply (state : State) : Event → State
  | .orchestrate roomId sourceMessageId =>
    if state.running then
      match orchestrate env roomId sourceMessageId (onShared others) state.now with
      | (.cut, now) => { now, running := false }
      | (_, now) => { now, running := true }
    else state
  | .restart pid =>
    let stores := state.now.state
    let shared := { stores.shared with active := ∅ }
    match (persistent env.ledgerSerde).run (env.faults state.now.moment)
      (stores.own.ledger.world.restart pid) with
    | (.done records, world) =>
      { now := state.now.after (onShared others)
          { shared, own := { stores.own with ledger := { records, world } } }
        running := true }
    | (_, world) =>
      { now := state.now.after (onShared others)
          { shared, own := { stores.own with ledger := { stores.own.ledger with world } } }
        running := false }

/-- A run of calls and starts. -/
def run (events : List Event) (state : State) : State := events.foldl (apply env others) state

/-- Before the first start, with no operation reserved. -/
def State.first (shared : Shared) (world : World) : State where
  now :=
    { moment := 0, state := { shared, own := { ledger := { records := ∅, world }, events := [] } } }
  running := false

end Runs

/-- The others never change what is the orchestration's own. -/
theorem onShared_own (others : ℕ → Shared → Shared) : Thread.Own (onShared others) Stores.own :=
  fun _ _ => rfl

/-- The records that a start reads are those that there were, as far as it matters. -/
theorem markStep_rewrite {records : Records} : MarkStep records (rewriteRecords records) where
  contains id := by
    rw [ExtTreeMap.contains_eq_isSome_getElem?, ExtTreeMap.contains_eq_isSome_getElem?,
      getElem?_rewriteRecords, Option.isSome_map]
  size := ExtTreeMap.size_map
  change id := by
    rw [getElem?_rewriteRecords]
    exact .rewrite _
  links id record record' hrecord hrecord' := by
    rw [getElem?_rewriteRecords, hrecord] at hrecord'
    obtain rfl := Option.some.inj hrecord'
    unfold rewriteRecord
    split <;> exact ⟨rfl, rfl⟩

/-- Every event of a run keeps what is good. -/
theorem apply_good {env : Environment} (hserde : env.ledgerSerde.RoundTrips)
    (others : ℕ → Shared → Shared) {state : State} (h : Good env.ledgerSerde state.now.state.own)
    (event : Event) : Good env.ledgerSerde (apply env others state event).now.state.own := by
  cases event with
  | orchestrate roomId sourceMessageId =>
    rw [apply]
    split
    · have hends := orchestrate_runs (onShared_own others) hserde roomId sourceMessageId state.now h
      unfold Thread.wp at hends
      rcases hrun : orchestrate env roomId sourceMessageId (onShared others) state.now with
        ⟨_ | _ | _, now⟩
      all_goals
        rw [hrun] at hends
        exact hends
    · exact h
  | restart pid =>
    have hends := Prog.run_wp (persistent env.ledgerSerde) (env.faults state.now.moment)
      (state.now.state.own.ledger.world.restart pid)
      (persistent_wp (w := state.now.state.own.ledger.world.restart pid) hserde h.file)
    rw [apply]
    dsimp only
    rcases hrun : (persistent env.ledgerSerde).run (env.faults state.now.moment)
      (state.now.state.own.ledger.world.restart pid) with ⟨_ | _ | _, world⟩
    all_goals rw [hrun] at hends
    · obtain ⟨rfl, hfile⟩ := hends
      exact @Good.step _ state.now.state.own.ledger _ h _ hfile markStep_rewrite
    · exact @Good.step _ state.now.state.own.ledger _ h _ hends (markStep_refl _)
    · exact @Good.step _ state.now.state.own.ledger _ h _ hends (markStep_refl _)

/-- What is good holds along the run, by induction on its events. -/
theorem run_good {env : Environment} (hserde : env.ledgerSerde.RoundTrips)
    (others : ℕ → Shared → Shared) (events : List Event) {state : State}
    (h : Good env.ledgerSerde state.now.state.own) :
    Good env.ledgerSerde (run env others events state).now.state.own := by
  induction events generalizing state with
  | nil => exact h
  | cons event events ih => exact ih (apply_good hserde others h event)

/-- Of an operation that has done nothing. -/
theorem laws_nil (id : String) : Laws [] none id [] := by
  constructor <;> simp [givenLinks, givenSession, givenPlan, dispatchedLinks, sessions, Rounds.nil]

/-- Without any file all is good at first. -/
theorem good_first (serde : Serde PersistedFile) (shared : Shared) {world : World}
    (hp : world.dir .primary = none) (hb : world.dir .backup = none) :
    Good serde (State.first shared world).now.state.own where
  file := fileHolds_first serde hp hb
  tracks id := by
    show Tracks ∅ [] id
    rw [Tracks, ExtTreeMap.getElem?_empty]
    exact ⟨[], none, laws_nil id⟩
  earlier past hpast id := by
    obtain rfl : past = [] := List.suffix_nil.mp hpast
    exact ⟨[], none, laws_nil id⟩
  reserved id hcontains := by simp [State.first] at hcontains
  begun event past hpast := by simp [State.first] at hpast
  size := by simp [State.first]
  once _ id := by simp [State.first]

/-- What holds of an operation at the end of a run. -/
structure OperationLaws (own : Own) (id : String) : Prop where
  /-- At every point of the run: since it was last reserved, it has asked for at most one plan and
  one answer, and handed over at most one final message, and its workers were called in rounds
  through the delegations that the ledger was given. -/
  laws : ∀ past, past <:+ own.events → Laws (givenLinks id past) (givenSession id past) id past
  /-- The delegations and the session that the ledger was given are those of its record. -/
  current : ∀ record, own.ledger.records[id]? = some record →
    givenLinks id own.events = record.delegations ∧
      givenSession id own.events = record.conductorSessionId
  /-- What its record allows later has not been done. -/
  notYet : ∀ record, own.ledger.records[id]? = some record → NotYet record.stage id own.events
  /-- Whatever it has done, it was reserved before. -/
  begun : ∀ event past, event :: past <:+ own.events → event.operationId = id →
    event = .reserved id ∨ .reserved id ∈ past
  /-- It is reserved once, as long as the ledger has had room for every operation. -/
  once : own.events.countP isReserved ≤ maximumRecords → own.events.count (.reserved id) ≤ 1

/-- An event that reserves is the reservation of its operation. -/
theorem eq_reserved {event : OrchestrationEvent} (h : isReserved event = true) :
    event = .reserved event.operationId := by
  cases event with
  | reserved id => rfl
  | planned | delegated | dispatched | synthesized | saved => cases h

/-- What is good contains the laws of every operation. -/
theorem Good.operationLaws {serde : Serde PersistedFile} {own : Own}
    (h : Good serde own) (id : String) :
    OperationLaws own id := by
  have htracks : ∀ record, own.ledger.records[id]? = some record →
      Laws record.delegations record.conductorSessionId id own.events ∧
        NotYet record.stage id own.events := by
    intro record hrecord
    have htracks := h.tracks id
    rwa [Tracks, hrecord] at htracks
  refine ⟨fun past hpast => ?_, fun record hrecord => (htracks record hrecord).1.given,
    fun record hrecord => (htracks record hrecord).2, fun event past hpast hid => ?_,
      fun hroom => ?_⟩
  · obtain ⟨links, session, hlaws⟩ := h.earlier past hpast id
    rwa [hlaws.given.1, hlaws.given.2]
  · subst hid
    exact (h.begun event past hpast).imp_left eq_reserved
  · rw [h.once hroom id]
    split <;> omega

/-- In every run of orchestrations, each of which may be cut off, and of restarts, from a directory
without a ledger, the laws of every operation hold, whatever the Room store, the other threads,
Codex, and the workers do. -/
theorem orchestrated_once {env : Environment} (hserde : env.ledgerSerde.RoundTrips) {world : World}
    (hp : world.dir .primary = none) (hb : world.dir .backup = none) (others : ℕ → Shared → Shared)
    (shared : Shared) (events : List Event) (id : String) :
    OperationLaws (run env others events (.first shared world)).now.state.own id :=
  (run_good hserde others events (good_first env.ledgerSerde shared hp hb)).operationLaws id

namespace Sample

/-- A room with the owner, the conductor and one worker. -/
def room : Room where
  id := "room-1"
  name := "Room"
  participantIds := ["owner", "codex", "claude-code"]
  messages := [⟨"m1", "room-1", "owner", ["codex"], "Hello", "2026-08-12", [], none⟩]

/-- A room whose conductor is Codex, with a message to it. -/
def shared : Shared where
  rooms :=
    { schemaVersion := protocolVersion
      generatedAt := "2026-08-12"
      participants := [⟨"owner", "Owner", .human⟩, ⟨"codex", "Codex", .ai⟩,
        ⟨"claude-code", "Claude", .ai⟩]
      rooms := [room] }
  roomWorld := .empty 7
  settings :=
    { rooms := (∅ : RoomConductorSettings.Rooms).insert "room-1" ⟨"room-1", "codex", .conductor⟩
      world := .empty 7 }
  active := ∅

/-- The time of the clock. -/
def now : String := "1970-01-01T00:00:00.000Z"

/-- What the ledger keeps of the delegation to Claude. -/
def claudeLink : OrchestrationDelegationLink where
  targetParticipantId := "claude-code"
  messageId := "conductor-delegation-v1-bc7aff78299f758e1ead66be82d67114"
  dispatchId := "conductor-dispatch-v1-bc7aff78299f758e1ead66be82d67114"

/-- The operation before its plan. -/
def undelegated (stage : Conductor.ConductorOperationStage) : RoomOrchestrationRecord :=
  { RoomOrchestrationLedger.Sample.prepared with stage, updatedAt := now }

/-- The operation with its delegation. -/
def delegated (stage : Conductor.ConductorOperationStage) : RoomOrchestrationRecord :=
  { undelegated stage with conductorSessionId := some "session-1", delegations := [claudeLink] }

/-- The serializer for the ledger with that operation at each of its stages. -/
def ledgerSerde : Serde PersistedFile :=
  .table (([.prepared, .planning].map fun stage =>
    RoomOrchestrationLedger.Sample.row (undelegated stage)) ++
    [.delegating, .synthesizing, .completed].map fun stage =>
      RoomOrchestrationLedger.Sample.row (delegated stage))

/-- The serializer reads back what it writes. -/
theorem ledgerSerde_roundTrips : ledgerSerde.RoundTrips :=
  Serde.table_roundTrips (by decide +kernel) (by decide +kernel)

/-- The snapshot with messages of Codex after the first one. -/
def answered (messages : List RoomMessage) : RoomSnapshot :=
  { shared.rooms with
    generatedAt := now
    rooms := [{ room with messages := room.messages ++ messages }] }

/-- The message that delegates to Claude. -/
def delegationMessage : RoomMessage :=
  ⟨claudeLink.messageId, "room-1", "codex", ["claude-code"], "Answer", now, [], none⟩

/-- The answer to the owner. -/
def finalMessage : RoomMessage :=
  ⟨RoomOrchestrationLedger.Sample.prepared.finalMessageId, "room-1", "codex", ["owner"], "Text",
    now, [], none⟩

/-- Codex delegates the message to Claude, which answers when it is asked once more: the process
stops the first time. -/
def environment : Environment where
  roomSerde := RoomPersistence.Sample.serde [answered [delegationMessage],
    answered [delegationMessage, finalMessage]]
  settingsSerde := .table []
  ledgerSerde := ledgerSerde
  fromSlice _ := some
    { version := 1, mode := .delegate, directAnswer := .null
      delegations := [⟨"claude-code", "Answer"⟩] }
  jsonText _ := ""
  faults _ := []
  stops moment := moment == 19
  clock _ := some (0, 0)
  displayName _ _ := none
  aiModel _ _ := none
  geminiAvailable := false
  runTextTurn _ _ := .ok { text := "Text", sessionId := some "session-1", artifactIds := [] }
  dispatchWorker _ delegation conductorId workerId :=
    .completed ⟨"reply", delegation.roomId, workerId, [conductorId], "Done", "2026-08-12", [], none⟩

/-- Two calls, each in a process of its own. -/
def twoCalls : List Event :=
  [.restart 8, .orchestrate "room-1" "m1", .restart 9, .orchestrate "room-1" "m1"]

end Sample

open Sample in
/-- A run that plans, dispatches and synthesizes, and a second call that does none of it again. -/
theorem orchestrated_once_sample :
    let own := (run environment (fun _ shared => shared) twoCalls
      (.first shared (.empty 7))).now.state.own
    let id := RoomOrchestrationLedger.Sample.prepared.operationId
    own.events = [.saved id, .synthesized id "session-1", .dispatched id claudeLink,
      .dispatched id claudeLink,
        .delegated id "session-1" [claudeLink], .planned id, .reserved id] ∧
      own.ledger.records[id]? = some (delegated .completed) ∧ OperationLaws own id :=
  ⟨by decide +kernel, by decide +kernel,
    orchestrated_once ledgerSerde_roundTrips rfl rfl _ _ _ _⟩

end Mio.Desktop.RoomOrchestrator
