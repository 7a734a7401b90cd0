import Mio.Desktop.RoomOrchestrationLedger

/-!
# The file of the orchestration ledger

`FileHolds` says that the file holds the records, which are valid. A persist that returns makes it
hold its records, and any other keeps what it holds (`persist_wp`). A load returns the records
rewritten (`load_run`), and rewriting them twice is as rewriting them once
(`rewriteRecords_idempotent`), so a start leaves a file from which every later load returns the
same.
-/

namespace Mio.Desktop.RoomOrchestrationLedger

open Library Core.Conductor Std

/-! ## Valid records -/

/-- Records that a file can hold: within the limit, each valid and under its own identifier. -/
abbrev ValidRecords : Records → Prop :=
  ValidMap maximumRecords fun id record => record.operationId = id ∧ validateRecord record = .ok ()

/-- Valid records are kept under their identifiers. -/
theorem ValidRecords.key {records : Records} (h : ValidRecords records) :
    AllEntries (fun id record => record.operationId = id) records :=
  fun id record hrecord => (h.entries id record hrecord).1

/-- The check does not depend on the stage, and on the time only by its own check. -/
theorem validateRecord_move {record : RoomOrchestrationRecord}
    (h : validateRecord record = .ok ()) (stage : ConductorOperationStage) {updatedAt : String}
    (hupdated : validTimestamp updatedAt = true) :
    validateRecord { record with stage, updatedAt } = .ok () := by
  unfold validateRecord at h ⊢
  split at h
  · cases h
  rename_i hchecked
  simp only [Bool.or_eq_true, not_or] at hchecked
  rw [if_neg]
  · exact h
  · simp only [Bool.or_eq_true, not_or, hupdated]
    exact ⟨⟨hchecked.1.1, by simp⟩, hchecked.2⟩

/-- The time of a valid record is valid. -/
theorem validTimestamp_of_validateRecord {record : RoomOrchestrationRecord}
    (h : validateRecord record = .ok ()) : validTimestamp record.updatedAt = true := by
  unfold validateRecord at h
  split at h
  · cases h
  rename_i hchecked
  simp only [Bool.or_eq_true, not_or, Bool.not_eq_true', Bool.not_eq_false] at hchecked
  exact hchecked.1.2

/-- A valid record stays valid when its delegations are set. -/
theorem validateRecord_delegate {record : RoomOrchestrationRecord}
    (h : validateRecord record = .ok ()) {sessionId : String}
    {delegations : List OrchestrationDelegationLink} {updatedAt : String}
    (hsession : validSessionId sessionId = true) (hlength : delegations.length ≤ maximumWorkers)
    (hdelegations : validateDelegations record delegations = .ok ())
    (hupdated : validTimestamp updatedAt = true) (stage : ConductorOperationStage) :
    validateRecord { record with
      conductorSessionId := some sessionId, delegations, stage, updatedAt } = .ok () := by
  unfold validateRecord at h ⊢
  split at h
  · cases h
  rename_i hchecked
  simp only [Bool.or_eq_true, not_or] at hchecked
  obtain ⟨⟨⟨⟨hids, -⟩, hfinal⟩, -⟩, -⟩ := hchecked
  have hlength' : ¬maximumWorkers < delegations.length := by omega
  rw [if_neg]
  · split at h
    · cases h
    split at h
    · cases h
    rename_i ids hids' hsame
    simp only [hids']
    rw [if_neg hsame]
    exact hdelegations
  · simp only [Bool.or_eq_true, not_or, hupdated, Option.any_some, hsession, hlength',
      decide_eq_true_eq]
    exact ⟨⟨⟨⟨hids, by simp⟩, hfinal⟩, by simp⟩, not_false⟩

/-! ## The rewriting of a load -/

/-- The records that a load makes of them. -/
def rewriteRecords (records : Records) : Records := records.map fun _ => rewriteRecord

/-- A load rewrites each record by itself. -/
@[simp]
theorem getElem?_rewriteRecords (records : Records) (id : String) :
    (rewriteRecords records)[id]? = records[id]?.map rewriteRecord :=
  ExtTreeMap.getElem?_map

/-- A record that was rewritten is not rewritten again. -/
theorem rewriteRecord_idempotent (record : RoomOrchestrationRecord) :
    rewriteRecord (rewriteRecord record) = rewriteRecord record := by
  by_cases h : isRewritten record = true
  · have hunknown : rewriteRecord record = { record with stage := .unknown } := if_pos h
    rw [hunknown]
    rfl
  · have hsame : rewriteRecord record = record := if_neg h
    rw [hsame, hsame]

/-- Records that were rewritten stay as they are. -/
theorem rewriteRecords_idempotent (records : Records) :
    rewriteRecords (rewriteRecords records) = rewriteRecords records := by
  refine ExtTreeMap.ext_getElem? fun id => ?_
  rw [getElem?_rewriteRecords, getElem?_rewriteRecords, Option.map_map]
  congr 1
  funext record
  exact rewriteRecord_idempotent record

/-- Where no record was under way, the rewriting changes nothing. -/
theorem rewriteRecords_eq_self {records : Records}
    (h : (toPersisted records).records.any isRewritten = false) :
    rewriteRecords records = records := by
  refine ExtTreeMap.ext_getElem? fun id => ?_
  rw [getElem?_rewriteRecords]
  rcases hrecord : records[id]? with _ | record
  · rfl
  · have hmem : record ∈ (toPersisted records).records :=
      List.mem_map.mpr ⟨(id, record), ExtTreeMap.mem_toList_iff_getElem?_eq_some.mpr hrecord, rfl⟩
    have hnot := List.any_eq_false.mp h record hmem
    simp [rewriteRecord, hnot]

/-- A rewritten record passes its check. -/
theorem validateRecord_rewrite {record : RoomOrchestrationRecord}
    (h : validateRecord record = .ok ()) : validateRecord (rewriteRecord record) = .ok () := by
  unfold rewriteRecord
  split
  · exact validateRecord_move h .unknown (validTimestamp_of_validateRecord h)
  · exact h

/-- Rewritten records are valid. -/
theorem ValidRecords.rewrite {records : Records} (h : ValidRecords records) :
    ValidRecords (rewriteRecords records) := by
  refine ⟨?_, fun id record hrecord => ?_⟩
  · rw [rewriteRecords, ExtTreeMap.size_map]
    exact h.size
  · rw [getElem?_rewriteRecords, Option.map_eq_some_iff] at hrecord
    obtain ⟨old, hold, rfl⟩ := hrecord
    obtain ⟨hid, hvalid⟩ := h.entries id old hold
    refine ⟨?_, validateRecord_rewrite hvalid⟩
    rw [← hid, rewriteRecord]
    split <;> rfl

/-- Valid records come back from the file's rows, rewritten. -/
theorem ofPersisted_toPersisted {records : Records} (h : ValidRecords records) :
    ofPersisted (toPersisted records) =
      some (rewriteRecords records, (toPersisted records).records.any isRewritten) := by
  have hlength : (toPersisted records).records.length = records.size := by
    rw [toPersisted, List.length_map, ExtTreeMap.length_toList]
  have hguard : ((toPersisted records).fileVersion != fileVersion ||
      decide (maximumRecords < (toPersisted records).records.length)) = false := by
    have hsize := h.size
    rw [hlength]
    simp only [toPersisted, bne_self_eq_false, Bool.false_or, decide_eq_false_iff_not]
    omega
  have hcollect : collect persistedEntry (toPersisted records).records ∅ =
      some (rewriteRecords records) := by
    refine collect_map (getElem?_rewriteRecords records) fun id record hrecord => ?_
    obtain ⟨hid, hvalid⟩ := h.entries id record hrecord
    simp [persistedEntry, hvalid, hid]
  rw [ofPersisted, hguard, hcollect]
  rfl

/-! ## The file -/

/-- The file holds the records: it is the content for them, and there is none only where there are
no records. -/
structure FileHolds (serde : Serde PersistedFile) (records : Records) (dir : Directory) : Prop where
  regular : dir.Regular
  valid : ValidRecords records
  content : (dir.current = none ∧ records = ∅) ∨ ∃ body, dir.current = some (.file body) ∧
    body ≠ [] ∧ body.length ≤ maximumFileBytes ∧ serde.fromSlice body = some (toPersisted records)

section File

variable {serde : Serde PersistedFile} {records : Records} {w : World}

/-- A persist that does not return keeps what the file holds. -/
theorem FileHolds.kept (h : FileHolds serde records w.dir) {w' : World} (hkept : World.Kept w w') :
    FileHolds serde records w'.dir := by
  refine ⟨hkept.regular h.regular, h.valid, ?_⟩
  rw [hkept.current]
  exact h.content

/-- The persist of some records has returned. -/
def Saved (serde : Serde PersistedFile) (records : Records) (before after : World) : Prop :=
  ∃ body, serde.toVec (toPersisted records) = some body ∧ body.length ≤ maximumFileBytes ∧
    before.dir.Regular ∧ World.Replaced body before after

/-- A persist that returns makes the file hold the records. -/
theorem FileHolds.saved (hserde : serde.RoundTrips) (hvalid : ValidRecords records) {w' : World}
    (h : Saved serde records w w') : FileHolds serde records w'.dir := by
  obtain ⟨body, hvec, hsize, hregular, hreplaced⟩ := h
  obtain ⟨hne, hback⟩ := hserde _ _ hvec
  exact ⟨hreplaced.regular hregular, hvalid,
    .inr ⟨body, Directory.current_of_primary hreplaced.primary, hne, hsize, hback⟩⟩

/-- A file is read, and left as it is. -/
theorem readFile_wp {done : PersistedFile → World → Prop}
    {error : RoomOrchestrationLedgerError → World → Prop} {cut : World → Prop} {path : Sibling}
    (hdone : ∀ body persisted, w.dir path = some (.file body) →
      serde.fromSlice body = some persisted → done persisted w)
    (hrest : ∀ e, error e w ∧ cut w) : (readFile serde path).wp done error cut w := by
  simp only [readFile, Prog.wp_bind, wp_pathIsFile, Prog.wp_refuse, wp_readToEnd, Prog.wp_ofOption]
  refine ⟨fun _ => (hrest _).1, fun _ => ⟨fun body hpath => ⟨fun _ => (hrest _).1, fun _ =>
    ⟨fun persisted hpersisted => ?_, fun _ => (hrest _).1⟩⟩, hrest _⟩⟩
  exact hdone body persisted hpath hpersisted

/-- The check of the primary leaves it as it is. -/
theorem checkPrimary_wp {done : Unit → World → Prop}
    {error : RoomOrchestrationLedgerError → World → Prop} {cut : World → Prop}
    (hdone : done () w) (hrest : ∀ e, error e w ∧ cut w) :
    (checkPrimary serde).wp done error cut w := by
  simp only [checkPrimary, Prog.wp_bind, wp_pathExists, Prog.wp_ite, wp_pathIsFile, Prog.wp_refuse,
    Prog.wp_attempt, Prog.wp_pure]
  refine ⟨fun _ => ⟨fun _ => (hrest _).1, fun _ => ?_⟩, fun _ => hdone⟩
  exact readFile_wp (fun _ _ _ _ => hdone) fun _ => ⟨(hrest _).1, (hrest .io).2⟩

/-- A persist saves the records, or it keeps what a reader finds, under every schedule and whatever
is in the directory. -/
theorem persist_wp (serde : Serde PersistedFile) (records : Records) (w : World) :
    (persist serde records).wp (fun _ => Saved serde records w) (fun _ => World.Kept w)
      (World.Kept w) w := by
  have hkept : World.Kept w w := .refl w
  simp only [persist, Prog.wp_bind, wp_quietStep, wp_pathExists, wp_pathIsFile, Prog.wp_refuse,
    Prog.wp_ofOption, Prog.wp_onError, wp_fetchAdd, Prog.wp_gets]
  refine ⟨fun _ => hkept, fun _ => ⟨⟨fun _ => hkept, fun hprimary => ⟨fun body hvec =>
    ⟨fun _ => hkept, fun hsize => ?_⟩, fun _ => hkept⟩⟩, hkept, hkept⟩⟩
  have hsize' : body.length ≤ maximumFileBytes := by simpa using hsize
  have hnext : World.SameFiles w { w with sequence := w.sequence + 1 } :=
    ⟨rfl, rfl, fun _ _ => rfl⟩
  have hcleanup : ∀ w', World.Kept w w' →
      (removeFile RoomOrchestrationLedgerError.io (.temp w.pid w.sequence)).wp
        (fun _ => World.Kept w) (fun _ => World.Kept w) (World.Kept w) w' :=
    fun w' h => removeTemp_wp fun _ hsame =>
      ⟨h.sameFiles hsame, h.sameFiles hsame, h.sameFiles hsame⟩
  have hfail : ∀ w', World.SameFiles w w' →
      (removeFile RoomOrchestrationLedgerError.io (.temp w.pid w.sequence)).wp
        (fun _ => World.Kept w) (fun _ => World.Kept w) (World.Kept w) w' ∧ World.Kept w w' :=
    fun w' hsame => ⟨hcleanup _ (hkept.sameFiles hsame), hkept.sameFiles hsame⟩
  rw [wp_createNew]
  refine ⟨fun _ => ?_, hfail _ hnext⟩
  have hcreated := hnext.trans (.temp _ w.pid w.sequence (some (.file [])))
  refine writeTemp_wp (fun w1 hwritten htemp => ?_) fun w' hsame => hfail _ (hcreated.trans hsame)
  have hsame := hcreated.trans hwritten
  refine ⟨fun _ => (hfail _ hsame).1, fun hbackup => ?_⟩
  refine checkPrimary_wp ?_ fun _ => hfail _ hsame
  -- Both files have been checked by now.
  have hregular : w1.dir.Regular := by
    refine regular_of_checks ?_
    rw [Bool.or_eq_false_iff]
    refine ⟨?_, hbackup⟩
    simpa [Directory.has, Directory.isFile, hsame.primary] using hprimary
  have hregular' : w.dir.Regular := by
    have hp := hregular.primary
    have hb := hregular.backup
    rw [hsame.primary] at hp
    rw [hsame.backup] at hb
    exact ⟨hp, hb⟩
  refine Prog.wp_mono (fun _ w' h => ?_) (fun e w' h => ?_) (fun w' h => ?_) _ _
    (replacePrimary_wp hregular htemp)
  · exact ⟨body, hvec, hsize', hregular', h.of_sameFiles hsame⟩
  · exact hcleanup _ (h.of_sameFiles hsame)
  · exact h.of_sameFiles hsame

/-- Which file a load takes. -/
theorem loadSource_wp (h : FileHolds serde records w.dir)
    {done : Option Sibling → World → Prop} {error : RoomOrchestrationLedgerError → World → Prop}
    {cut : World → Prop} (hnone : w.dir.current = none → done none w)
    (hsome : ∀ path body, w.dir.current = some (.file body) → w.dir path = some (.file body) →
      done (some path) w) : loadSource.wp done error cut w := by
  rcases h.regular.primary with hp | ⟨primary, hp⟩
  · rcases h.regular.backup with hb | ⟨backup, hb⟩
    · have hcurrent : w.dir.current = none := by rw [Directory.current_of_no_primary hp, hb]
      simpa [loadSource, Directory.isFile, Directory.has, hp, hb] using hnone hcurrent
    · have hcurrent : w.dir.current = some (.file backup) := by
        rw [Directory.current_of_no_primary hp, hb]
      simpa [loadSource, Directory.isFile, Directory.has, hp, hb] using hsome _ _ hcurrent hb
  · have hcurrent := Directory.current_of_primary hp
    simpa [loadSource, Directory.isFile, hp] using hsome _ _ hcurrent hp

/-- A load returns the records rewritten, with whether any was, and changes nothing. -/
theorem load_wp (h : FileHolds serde records w.dir) :
    (load serde).wp (fun loaded w' => w' = w ∧ loaded =
        (rewriteRecords records, (toPersisted records).records.any isRewritten))
      (fun _ w' => w' = w) (fun w' => w' = w) w := by
  simp only [load, Prog.wp_bind]
  refine loadSource_wp h (fun hnone => ?_) fun path body hcurrent hpath => ?_
  · rcases h.content with ⟨-, rfl⟩ | ⟨body, hbody, -⟩
    · refine ⟨rfl, ?_⟩
      have hany : (toPersisted ∅).records.any isRewritten = false := by simp [toPersisted]
      rw [hany, rewriteRecords_eq_self hany]
    · simp [hnone] at hbody
  · rcases h.content with ⟨hnone, -⟩ | ⟨held, hheld, -, -, hback⟩
    · simp [hnone] at hcurrent
    obtain rfl : held = body := by simpa [hcurrent] using hheld.symm
    dsimp only
    rw [Prog.wp_bind]
    refine readFile_wp (fun found persisted hfound hpersisted => ?_) fun _ => ⟨rfl, rfl⟩
    obtain rfl : found = held := by simpa [hpath] using hfound.symm
    obtain rfl : persisted = toPersisted records := by simpa [hback] using hpersisted.symm
    rw [ofPersisted_toPersisted h.valid]
    exact ⟨rfl, rfl⟩

attribute [local simp] Prog.gets_bind Prog.ite_bind Prog.refuse_bind Prog.read_bind Prog.step_bind
  Prog.throw_bind Prog.tryStep_bind Prog.run_ite Prog.run_step_nil in
/-- A load that no fault befalls does so. -/
theorem load_run (h : FileHolds serde records w.dir) :
    (load serde).run [] w =
      (.done (rewriteRecords records, (toPersisted records).records.any isRewritten), w) := by
  have hfile : ∀ path body, w.dir path = some (.file body) → body ≠ [] →
      body.length ≤ maximumFileBytes → serde.fromSlice body = some (toPersisted records) →
      (readFile serde path).run [] w = (.done (toPersisted records), w) := by
    intro path body hpath hne hsize hback
    have hsize' : ¬maximumFileBytes < body.length := by omega
    simp [readFile, pathIsFile, readToEnd, quietStep, dirStep, Directory.isFile, hpath, hne, hsize',
      hback, Prog.ofOption, Prog.run]
  have hrows := ofPersisted_toPersisted h.valid
  rcases h.content with ⟨hnone, rfl⟩ | ⟨body, hcurrent, hne, hsize, hback⟩
  · obtain ⟨hp, hb⟩ : w.dir .primary = none ∧ w.dir .backup = none := by
      simpa [Directory.current] using hnone
    have hany : (toPersisted ∅).records.any isRewritten = false := by simp [toPersisted]
    rw [hany, rewriteRecords_eq_self hany]
    simp [load, loadSource, pathIsFile, pathExists, Directory.isFile, Directory.has, hp, hb]
  rcases h.regular.primary with hp | ⟨primary, hp⟩
  · have hb : w.dir .backup = some (.file body) := by
      rwa [Directory.current_of_no_primary hp] at hcurrent
    have hread := hfile _ _ hb hne hsize hback
    simp [load, loadSource, pathIsFile, pathExists, Directory.isFile, Directory.has, hp, hb,
      Prog.run_bind_nil, hread, hrows, Prog.ofOption, Prog.run]
  · obtain rfl : primary = body := by
      simpa [Directory.current_of_primary hp] using hcurrent
    have hread := hfile _ _ hp hne hsize hback
    simp [load, loadSource, pathIsFile, Directory.isFile, hp, Prog.run_bind_nil, hread, hrows,
      Prog.ofOption, Prog.run]

/-- A start returns the records rewritten, with a file that holds them. One that does not return
leaves a file that holds them as they were. -/
theorem persistent_wp (hserde : serde.RoundTrips) (h : FileHolds serde records w.dir) :
    (persistent serde).wp
      (fun started w' => started = rewriteRecords records ∧ FileHolds serde started w'.dir)
      (fun _ w' => FileHolds serde records w'.dir)
        (fun w' => FileHolds serde records w'.dir) w := by
  simp only [persistent, Prog.wp_bind]
  refine Prog.wp_mono ?_ ?_ ?_ _ _ (load_wp h)
  · rintro _ w1 ⟨rfl, rfl⟩
    dsimp only
    split
    · rw [Prog.wp_bind]
      refine Prog.wp_mono (fun _ w2 hsaved => ?_) (fun _ w2 hkept => h.kept hkept)
        (fun w2 hkept => h.kept hkept) _ _ (persist_wp serde _ w1)
      exact ⟨rfl, .saved hserde h.valid.rewrite hsaved⟩
    · rename_i hany
      rw [rewriteRecords_eq_self (by simpa using hany)]
      exact ⟨rfl, h⟩
  · rintro _ w1 rfl
    exact h
  · rintro w1 rfl
    exact h

end File

end Mio.Desktop.RoomOrchestrationLedger
