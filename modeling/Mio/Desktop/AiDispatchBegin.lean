import Mio.Desktop.AiDispatchInvariants
import Mio.Desktop.LedgerCapacity

/-!
# A begin of the dispatch ledger that fails

A begin prunes the records in memory before it persists the new ones, and nothing puts a pruned
record back when the persist fails. So a begin that returns an error leaves the records in memory
and in the file as they were if and only if it has no record to prune, and the file is not there as
a backup only (`begin_atomic_iff`).
-/

namespace Mio.Desktop.AiDispatchLedger

open Library Std

section Begin

variable (serde : Serde PersistedDispatchLedger)

/-- A start would read the records that are in memory. -/
def FileAgrees (ledger : DesktopAiDispatchLedger) : Prop :=
  (dispatchLedgerPersistence serde).reading ledger.world.dir.current = .ok ledger.data.records

/-- A begin that returns an error leaves the records and the active dispatches as they were, and the
file still holds these records. -/
def BeginAtomic (record : AiDispatchRecord) (ledger : DesktopAiDispatchLedger) : Prop :=
  ∀ faults e ledger', begin serde faults record ledger = (.error e, ledger') →
    ledger'.data = ledger.data ∧ (FileAgrees serde ledger → FileAgrees serde ledger')

/-- The record is valid, and its dispatch is neither active nor known. -/
structure Fresh (record : AiDispatchRecord) (ledger : DesktopAiDispatchLedger) : Prop where
  valid : validateRecord record = .ok ()
  inactive : record.dispatchId ∉ ledger.data.active
  absent : ledger.data.records[record.dispatchId]? = none

/-- A begin of the record prunes another one: the ledger is full, and holds one whose turn is over.
-/
structure MustPrune (record : AiDispatchRecord) (ledger : DesktopAiDispatchLedger) : Prop where
  fresh : Fresh record ledger
  full : maximumDispatchRecords ≤ ledger.data.records.size
  terminal : ∃ (dispatchId : String) (old : AiDispatchRecord),
    ledger.data.records[dispatchId]? = some old ∧ isTerminal old = true

/-- A begin of the record persists it where records are kept in a backup only. -/
structure MustExpose (record : AiDispatchRecord) (ledger : DesktopAiDispatchLedger) : Prop where
  fresh : Fresh record ledger
  room : ledger.data.records.size < maximumDispatchRecords
  kept : ledger.data.records ≠ ∅
  only : (dispatchLedgerPersistence serde).OnlyBackup
    (ledger.data.records.insert record.dispatchId { record with state := .prepared }) ledger.world

section Proofs

variable {serde} {record : AiDispatchRecord} {ledger : DesktopAiDispatchLedger}

/-- A begin of a record that is not fresh leaves the ledger. -/
theorem begin_of_not_fresh (h : ¬Fresh record ledger) (faults : List Fault) :
    (begin serde faults record ledger).2 = ledger := by
  unfold begin
  rcases hvalid : validateRecord record with e | _
  · rfl
  dsimp only
  by_cases hactive : ledger.data.active.contains record.dispatchId = true
  · rw [if_pos hactive]
  rw [if_neg hactive]
  rcases habsent : ledger.data.records[record.dispatchId]? with _ | existing
  · exact absurd ⟨hvalid, by simpa using hactive, habsent⟩ h
  · dsimp only
    split <;> rfl

/-- Without a record to prune, pruning leaves the records. -/
theorem prune_of_not_mustPrune (hsound : Sound ledger.data) (hfresh : Fresh record ledger)
    (h : ¬MustPrune record ledger) :
    pruneTerminalRecords ledger.data.records = ledger.data.records := by
  refine pruneOldest_eq_self hsound.valid.key ?_
  by_cases hroom : ledger.data.records.size < maximumDispatchRecords
  · exact .inl hroom
  · refine .inr fun dispatchId old hold => ?_
    by_contra hterminal
    exact h ⟨hfresh, by omega, dispatchId, old, hold, by simpa using hterminal⟩

/-- The ledger that a begin of a fresh record persists, once it has pruned. -/
theorem begin_eq_persist (hsound : Sound ledger.data) (hfresh : Fresh record ledger)
    (hroom : (pruneTerminalRecords ledger.data.records).size < maximumDispatchRecords)
    (faults : List Fault) :
    begin serde faults record ledger =
      let records := pruneTerminalRecords ledger.data.records
      let next := records.insert record.dispatchId { record with state := .prepared }
      match ((dispatchLedgerPersistence serde).persist next).run faults ledger.world with
      | (.done (), world) =>
        (.done .reserved,
          { data := { records := next, active := record.dispatchId :: ledger.data.active }, world })
      | (.error e, world) => (.error e, { data := { ledger.data with records }, world })
      | (.cut, world) => (.cut, { data := { ledger.data with records }, world }) := by
  rw [LedgerCapacity.begin_fresh hsound faults hfresh.valid hfresh.absent]
  dsimp only
  rw [if_neg (by omega)]
  unfold commit
  dsimp only
  rcases ((dispatchLedgerPersistence serde).persist
    ((pruneTerminalRecords ledger.data.records).insert record.dispatchId
      { record with state := .prepared })).run faults ledger.world with ⟨_ | _ | _, world⟩ <;> rfl

/-- A begin that prunes and then fails has forgotten a record. -/
theorem not_atomic_of_mustPrune (hsound : Sound ledger.data) (h : MustPrune record ledger) :
    ¬BeginAtomic serde record ledger := by
  intro hatomic
  obtain ⟨dispatchId, old, hold, hterminal⟩ := h.terminal
  have hspare : ¬AllEntries (fun _ value => isTerminal value = false) ledger.data.records := by
    intro hall
    have hopen : isTerminal old = false := hall dispatchId old hold
    rw [hterminal] at hopen
    cases hopen
  obtain ⟨pruned, value, hvalue, -, hrecords⟩ : ∃ pruned value,
      ledger.data.records[pruned]? = some value ∧ isTerminal value = true ∧
        pruneTerminalRecords ledger.data.records = ledger.data.records.erase pruned :=
    pruneOldest_eq_erase hsound.valid.key h.full hspare
  have hsize : (pruneTerminalRecords ledger.data.records).size < maximumDispatchRecords :=
    (pruneOldest_size_lt hsound.valid hsound.valid.key).mpr (.inr hspare)
  -- The first step of the persist fails.
  have hfails : begin serde [.fail 0] record ledger = (.error .io,
      { ledger with data :=
        { ledger.data with records := pruneTerminalRecords ledger.data.records } }) := by
    rw [begin_eq_persist hsound h.fresh hsize]
    rfl
  have hsame := (hatomic _ _ _ hfails).1
  have hforgotten : (ledger.data.records.erase pruned)[pruned]? = some value := by
    rw [← hrecords, ← hvalue]
    exact congrArg (fun data => data.records[pruned]?) hsame
  rw [ExtTreeMap.getElem?_erase_self] at hforgotten
  cases hforgotten

/-- A begin that persists where there is only a backup can fail with nothing left to read. -/
theorem not_atomic_of_mustExpose (hsound : Sound ledger.data) (hfile : FileAgrees serde ledger)
    (h : MustExpose serde record ledger) : ¬BeginAtomic serde record ledger := by
  intro hatomic
  have hprune : pruneTerminalRecords ledger.data.records = ledger.data.records :=
    pruneOldest_eq_self hsound.valid.key (.inl h.room)
  obtain ⟨after, hrun, hcurrent⟩ := JsonStore.persist_loses h.only
  have hroom := h.room
  have hfails : begin serde (List.replicate 5 .proceed ++ [.fail 0]) record ledger =
      (.error .io, { ledger with world := after }) := by
    rw [begin_eq_persist hsound h.fresh (by rw [hprune]; exact hroom), hprune]
    dsimp only
    rw [hrun]
  have hagrees : FileAgrees serde { ledger with world := after } := (hatomic _ _ _ hfails).2 hfile
  unfold FileAgrees at hagrees
  rw [hcurrent] at hagrees
  exact h.kept (Except.ok.inj hagrees).symm

/-- A begin is atomic if it has no record to prune, and does not persist over a backup that is all
there is of the file. -/
theorem atomic_of_sound (hsound : Sound ledger.data) (hprune : ¬MustPrune record ledger)
    (hexpose : FileAgrees serde ledger → ¬MustExpose serde record ledger) :
    BeginAtomic serde record ledger := by
  intro faults e ledger' hbegin
  by_cases hfresh : Fresh record ledger
  -- A dispatch that is not new changes nothing at all.
  case neg =>
    have hsame := @begin_of_not_fresh serde record ledger hfresh faults
    rw [hbegin] at hsame
    obtain rfl : ledger' = ledger := hsame
    exact ⟨rfl, id⟩
  have hpruned := prune_of_not_mustPrune hsound hfresh hprune
  by_cases hroom : ledger.data.records.size < maximumDispatchRecords
  -- With a full table, and nothing to prune, the limit refuses it before anything is written.
  case neg =>
    rw [LedgerCapacity.begin_fresh hsound faults hfresh.valid hfresh.absent, hpruned] at hbegin
    dsimp only at hbegin
    rw [if_pos (by omega), Prod.mk.injEq] at hbegin
    obtain ⟨-, rfl⟩ := hbegin
    exact ⟨rfl, id⟩
  rw [begin_eq_persist hsound hfresh (by rw [hpruned]; exact hroom), hpruned] at hbegin
  dsimp only at hbegin
  rcases hrun : ((dispatchLedgerPersistence serde).persist (ledger.data.records.insert
    record.dispatchId { record with state := .prepared })).run faults ledger.world
    with ⟨_ | e' | _, world⟩
  · rw [hrun] at hbegin
    cases hbegin
  · rw [hrun, Prod.mk.injEq] at hbegin
    obtain ⟨-, rfl⟩ := hbegin
    refine ⟨rfl, fun hfile => ?_⟩
    by_cases honly : (dispatchLedgerPersistence serde).OnlyBackup (ledger.data.records.insert
      record.dispatchId { record with state := .prepared }) ledger.world
    · -- Nothing is lost where nothing is kept.
      have hempty : ledger.data.records = ∅ := by
        by_contra hkept
        exact hexpose hfile ⟨hfresh, hroom, hkept, honly⟩
      have hends :=
        Prog.run_wp _ faults ledger.world ((dispatchLedgerPersistence serde).persist_leaves
        (ledger.data.records.insert record.dispatchId { record with state := .prepared })
          ledger.world)
      rw [hrun] at hends
      have hleft : JsonStore.Left ledger.world world := hends
      unfold FileAgrees
      dsimp only
      rcases hleft with hcurrent | hcurrent
      · rw [hcurrent]
        exact hfile
      · rw [hcurrent, hempty]
        rfl
    -- The file that is there is either untouched or replaced as a whole.
    · have hends := Prog.run_wp _ faults ledger.world (JsonStore.persist_current honly)
      rw [hrun] at hends
      have hcurrent : world.dir.current = ledger.world.dir.current := hends
      unfold FileAgrees
      dsimp only
      rw [hcurrent]
      exact hfile
  · rw [hrun] at hbegin
    cases hbegin

/-- A begin is atomic in a sound ledger exactly when it has no record to prune, and does not persist
over a backup that is all there is of the file. -/
theorem atomic_iff_of_sound (hsound : Sound ledger.data) :
    BeginAtomic serde record ledger ↔
      ¬MustPrune record ledger ∧ (FileAgrees serde ledger → ¬MustExpose serde record ledger) := by
  constructor
  · intro hatomic
    exact ⟨fun h => not_atomic_of_mustPrune hsound h hatomic,
      fun hfile h => not_atomic_of_mustExpose hsound hfile h hatomic⟩
  · rintro ⟨hprune, hexpose⟩
    exact atomic_of_sound hsound hprune hexpose

end Proofs

/-- In every state of every run, a begin that returns an error leaves the records in memory, the
active dispatches, and the records in the file as they were, exactly when it has no record to prune,
and does not persist over a backup that is all there is of the file. -/
theorem begin_atomic_iff (world : World) (events : List Event) (record : AiDispatchRecord) :
    let ledger := (run serde events (.first world)).ledger
    BeginAtomic serde record ledger ↔
      ¬MustPrune record ledger ∧ (FileAgrees serde ledger → ¬MustExpose serde record ledger) :=
  atomic_iff_of_sound (run_sound events (sound_first world))

end Begin

namespace Sample

/-- A full ledger with one record whose turn is over. The next begin prunes it and fails at its
first step: the record is not in the ledger any more, and the error is all that the caller is told.
-/
theorem begin_forgets :
    let ledger := (run serde (beginFirst ++ startFirst :: forget) (.first (World.empty 7))).ledger
    let ended := begin serde [.fail 0] (dispatch 0) ledger
    ended.1 = .error .io ∧
      ledger.data.records[identifier 512]? = some { dispatch 512 with state := .failed } ∧
      ended.2.data.records[identifier 512]? = none ∧ ¬BeginAtomic serde (dispatch 0) ledger := by
  obtain ⟨records, hsampled, hsize, hentries, hat⟩ := forget_run
  have hsound := @run_sound serde _ (beginFirst ++ startFirst :: forget)
    (sound_first (World.empty 7))
  generalize run serde (beginFirst ++ startFirst :: forget) (.first (World.empty 7)) = state
    at hat hsound ⊢
  obtain ⟨⟨data, world⟩, running⟩ := state
  obtain rfl : data = { records, active := [] } := hat.data
  -- The run has left one terminal record, and the one that is begun now is not there.
  have hlast : records[identifier 512]? = some { dispatch 512 with state := .failed } := by
    rw [hentries]
    rfl
  have habsent : records[identifier 0]? = none := by
    rw [hentries]
    rfl
  have hfresh : Fresh (dispatch 0) { data := { records, active := [] }, world } :=
    ⟨dispatch_valid (by decide), List.not_mem_nil, habsent⟩
  have hmust : MustPrune (dispatch 0) { data := { records, active := [] }, world } :=
    ⟨hfresh, hsize.ge, identifier 512, _, hlast, rfl⟩
  have hprune : pruneTerminalRecords records = records.erase (identifier 512) := by
    refine prune_of_only hsampled hsize 512 ⟨_, hlast, rfl⟩ fun n hn record hrecord => ?_
    rw [hentries, if_neg hn] at hrecord
    split_ifs at hrecord
    obtain rfl := Option.some.inj hrecord
    rfl
  have hsmaller : (records.erase (identifier 512)).size < maximumDispatchRecords := by
    have hmem : records.contains (identifier 512) = true := by
      rw [ExtTreeMap.contains_eq_isSome_getElem?, hlast]
      rfl
    -- The record was pruned before the persist failed, and it is not put back.
    have hpositive : 0 < maximumDispatchRecords := by decide
    rw [ExtTreeMap.size_erase, if_pos hmem]
    omega
  have hfails : begin serde [.fail 0] (dispatch 0) { data := { records, active := [] }, world } =
      (.error .io,
        { data := { records := records.erase (identifier 512), active := [] }, world }) := by
    rw [begin_eq_persist hsound hfresh (by rw [hprune]; exact hsmaller), hprune]
    rfl
  dsimp only
  rw [hfails]
  exact ⟨rfl, hlast, ExtTreeMap.getElem?_erase_self, not_atomic_of_mustPrune hsound hmust⟩

end Sample

end Mio.Desktop.AiDispatchLedger
