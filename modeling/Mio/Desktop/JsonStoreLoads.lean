import Mio.Desktop.JsonStore

/-!
# What a load reads after any persist

Whatever the directory holds, a load is a function of what a reader finds there (`load_run`), and a
persist leaves that as it was, saves the new state, or leaves nothing at all (`persist_leaves`). The
last is what `JsonStore.Exposes` is about; here no call is excluded. A persist that returns an error
leaves what a reader finds, unless there is only a backup (`persist_current`).
-/

namespace Mio.Desktop.JsonStore

open Library

variable {α : Type} (store : JsonStore α)

/-- What a load gives for what it finds. -/
def reading : Option Node → Except StoreError α
  | none => .ok store.empty
  | some (.file body) =>
    if body.isEmpty || store.maximumBytes < body.length then .error .invalid
    else match store.fromSlice body with
      | some value => .ok value
      | none => .error .invalid
  | some .other => .error .invalid

/-- A reader finds the content for the state. -/
def Holds (value : α) (w : World) : Prop :=
  ∃ body, store.toVec value = some body ∧ body.length ≤ store.maximumBytes ∧
    w.dir.current = some (.file body)

/-- A reader finds what it found before, or nothing. -/
def Left (before after : World) : Prop :=
  after.dir.current = before.dir.current ∨ after.dir.current = none

variable {store}

/-- The result of a program that only reads. -/
def asOutcome : Except StoreError α → Outcome StoreError α
  | .ok value => .done value
  | .error e => .error e

attribute [local simp] Prog.gets_bind Prog.ite_bind Prog.refuse_bind Prog.read_bind Prog.step_bind
  Prog.throw_bind Prog.tryStep_bind Prog.run_ite Prog.run_step_nil in
/-- A load that no step fails in gives what there is to find. -/
theorem load_run (w : World) :
    store.load.run [] w = (asOutcome (store.reading w.dir.current), w) := by
  have hbody : ∀ (body : Bytes),
      ((if body.isEmpty || decide (store.maximumBytes < body.length) then
        Prog.throw StoreError.invalid
        else Prog.ofOption .invalid (store.fromSlice body)) : Prog World StoreError α).run [] w =
      (asOutcome (store.reading (some (.file body))), w) := by
    intro body
    by_cases hbad : (body.isEmpty || decide (store.maximumBytes < body.length)) = true
    · rw [if_pos hbad, reading, if_pos hbad]
      rfl
    · rw [if_neg hbad, reading, if_neg hbad]
      rcases store.fromSlice body with _ | value <;> rfl
  rcases hp : w.dir .primary with _ | primary | _
  · rw [Directory.current_of_no_primary hp]
    rcases hb : w.dir .backup with _ | backup | _
    · simp [JsonStore.load, loadSource, pathIsFile, pathExists, Directory.isFile, Directory.has, hp,
        hb, reading, asOutcome]
    · rw [← hbody]
      simp [JsonStore.load, loadSource, pathIsFile, pathExists, readToEnd, quietStep, dirStep,
        Directory.isFile, Directory.has, hp, hb]
    · simp [JsonStore.load, loadSource, pathIsFile, pathExists, Directory.isFile, Directory.has, hp,
        hb, reading, asOutcome]
  · rw [Directory.current_of_primary hp, ← hbody]
    simp [JsonStore.load, loadSource, pathIsFile, pathExists, readToEnd, quietStep, dirStep,
      Directory.isFile, Directory.has, hp]
  · rw [Directory.current_of_primary hp]
    simp [JsonStore.load, loadSource, pathIsFile, pathExists, Directory.isFile, Directory.has, hp,
      reading, asOutcome]

/-- The renames put the temporary file in place of what a reader found, or leave that, or nothing.
-/
theorem replacePrimary_leaves {pid sequence : ℕ} {body : Bytes} {w : World}
    (htemp : w.dir (.temp pid sequence) = some (.file body)) :
    (replacePrimary (.temp pid sequence)).wp (fun _ after => after.dir.current = some (.file body))
      (fun _ => Left w) (Left w) w := by
  rcases hp : w.dir .primary with _ | primary | _ <;> rcases hb :
    w.dir .backup with _ | backup | _ <;>
    simp [replacePrimary, removeBackup, keepPrimary, renameTemp, Left, Directory.has,
      Directory.isFile, Directory.put_apply, Directory.current, hp, hb, htemp]

/-- What has the same files as a left world is left. -/
theorem Left.sameFiles {first before after : World} (h : Left first before)
    (hsame : World.SameFiles before after) : Left first after := by
  unfold Left
  rw [hsame.current]
  exact h

/-- A persist saves the new state, or a reader finds what it found before, or nothing. -/
theorem persist_leaves (value : α) (w : World) :
    (store.persist value).wp (fun _ => store.Holds value) (fun _ => Left w) (Left w) w := by
  have hleft : Left w w := .inl rfl
  simp only [persist, Prog.wp_bind, wp_quietStep, wp_pathExists, wp_pathIsFile, Prog.wp_refuse,
    Prog.wp_ofOption, wp_fetchAdd, Prog.wp_gets, Prog.wp_onError]
  refine ⟨⟨fun _ => hleft, fun _ => ⟨fun body hvec => ⟨fun _ => hleft, fun hsize => ?_⟩,
    fun _ => hleft⟩⟩, hleft, hleft⟩
  have hsize' : body.length ≤ store.maximumBytes := by simpa using hsize
  have hcleanup : ∀ w', Left w w' →
      (removeTemp (.temp w.pid w.sequence)).wp (fun _ => Left w) (fun _ => Left w) (Left w) w' :=
    fun w' h => removeTemp_wp fun _ hsame =>
      ⟨h.sameFiles hsame, h.sameFiles hsame, h.sameFiles hsame⟩
  refine writeTemp_wp (fun _ w' hsame htemp => ?_) fun w' hsame => ?_
  · refine Prog.wp_mono (fun _ w'' hcurrent => ?_) (fun e w'' h => ?_) (fun w'' h => ?_) _ _
      (replacePrimary_leaves htemp)
    · exact ⟨body, hvec, hsize', hcurrent⟩
    · exact hcleanup _ (by rw [Left, hsame.current] at h; exact h)
    · rw [Left, hsame.current] at h
      exact h
  · have h : Left w w' := .inl hsame.current
    exact ⟨hcleanup _ h, h⟩

/-- What a persist saved is what a load reads. -/
theorem Holds.reading {Valid : α → Prop} (hlawful : store.Lawful Valid) {value : α}
    (hvalid : Valid value) {w : World} (h : store.Holds value w) :
    store.reading w.dir.current = .ok value := by
  obtain ⟨body, hvec, hsize, hcurrent⟩ := h
  obtain ⟨hne, hback⟩ := hlawful.roundTrip value body hvalid hvec
  have hfits : ¬(body.isEmpty || decide (store.maximumBytes < body.length)) = true := by
    simp only [Bool.or_eq_true, List.isEmpty_iff, decide_eq_true_eq, not_or]
    exact ⟨hne, by omega⟩
  rw [hcurrent, JsonStore.reading, if_neg hfits, hback]

/-! ## A persist that fails -/

/-- The renames put the temporary file in place, or leave what a reader finds, but for a backup that
is all there is. -/
theorem replacePrimary_current {pid sequence : ℕ} {w : World}
    (hsafe : w.dir .primary = none → w.dir.isFile .backup = false) :
    (replacePrimary (.temp pid sequence)).wp (fun _ _ => True)
      (fun _ after => after.dir.current = w.dir.current) (fun _ => True) w := by
  unfold replacePrimary removeBackup keepPrimary
  rcases hp : w.dir .primary with _ | primary
  · -- A backup would be all there is.
    have hnone := hsafe hp
    rcases hb : w.dir .backup with _ | backup | _
    · simp [renameTemp, Directory.has, Directory.current, hp, hb]
    · rw [Directory.isFile, hb] at hnone
      cases hnone
    · simp [Directory.has, Directory.isFile, hp, hb]
  · rcases hb : w.dir .backup with _ | backup | _ <;>
      simp [renameTemp, Directory.has, Directory.isFile, Directory.put_apply, Directory.current, hp,
        hb]

/-- There is only a backup, and a persist gets to its removal. -/
structure OnlyBackup (store : JsonStore α) (value : α) (w : World) : Prop where
  primary : w.dir .primary = none
  backup : w.dir.isFile .backup = true
  body : ∃ body, store.toVec value = some body ∧ body.length ≤ store.maximumBytes
  temp : w.dir (.temp w.pid w.sequence) = none

/-- A persist that fails leaves what a reader finds, unless there is only a backup. -/
theorem persist_current {value : α} {w : World} (hsafe : ¬store.OnlyBackup value w) :
    (store.persist value).wp (fun _ _ => True) (fun _ after => after.dir.current = w.dir.current)
      (fun _ => True) w := by
  simp only [persist, Prog.wp_bind, wp_quietStep, wp_pathExists, wp_pathIsFile, Prog.wp_refuse,
    Prog.wp_ofOption, wp_fetchAdd, Prog.wp_gets, Prog.wp_onError]
  refine ⟨⟨fun _ => trivial, fun _ => ⟨fun body hvec => ⟨fun _ => trivial, fun hsize => ?_⟩,
    fun _ => trivial⟩⟩, trivial, trivial⟩
  have hsize' : body.length ≤ store.maximumBytes := by simpa using hsize
  have hcleanup : ∀ w', w'.dir.current = w.dir.current →
      (removeTemp (.temp w.pid w.sequence)).wp (fun _ after => after.dir.current = w.dir.current)
        (fun _ after => after.dir.current = w.dir.current) (fun _ => True) w' :=
    fun w' h => removeTemp_wp fun _ hsame =>
      ⟨hsame.current.trans h, hsame.current.trans h, trivial⟩
  refine writeTemp_wp (fun hfree w' hsame _ => ?_) fun w' hsame =>
    ⟨hcleanup _ hsame.current, trivial⟩
  have hreplace := @replacePrimary_current w.pid w.sequence w' (by
    intro hp
    by_contra hb
    rw [hsame.primary] at hp
    refine hsafe ⟨hp, ?_, ⟨body, hvec, hsize'⟩, hfree⟩
    rw [Directory.isFile, hsame.backup] at hb
    simpa [Directory.isFile] using hb)
  refine Prog.wp_mono (fun _ _ _ => trivial) (fun e w'' h => ?_) (fun _ _ => trivial) _ _ hreplace
  exact hcleanup _ (h.trans hsame.current)

attribute [local simp] Prog.tryStep_bind Prog.attempt_tryStep_bind Prog.gets_bind Prog.refuse_bind
  Prog.read_bind Prog.step_bind Prog.throw_bind Prog.ite_bind Prog.onError_read Prog.onError_step
  Prog.onError_ite Directory.put_apply in
/-- A persist whose last rename fails has by then removed the backup, if that was all there was. -/
theorem persist_loses {value : α} {w : World} (h : store.OnlyBackup value w) :
    ∃ after, (store.persist value).run (List.replicate 5 .proceed ++ [.fail 0]) w =
      (.error .io, after) ∧ after.dir.current = none := by
  obtain ⟨body, hvec, hsize⟩ := h.body
  obtain ⟨old, hb⟩ := Directory.isFile_iff.mp h.backup
  have hsize' : ¬store.maximumBytes < body.length := by omega
  simp [persist, quietStep, dirStep, pathExists, pathIsFile, createNew, writeAll, removeFile,
    renameFile, replacePrimary, renameTemp, removeTemp, writeTemp, removeBackup, keepPrimary,
    fetchAdd_bind, Prog.ofOption_bind, Prog.onError_throw, Prog.run, List.replicate,
    Directory.has, Directory.isFile, Directory.createNew, Directory.remove, Directory.rename,
    Directory.current, hvec, h.primary, hb, h.temp, hsize']

end Mio.Desktop.JsonStore
