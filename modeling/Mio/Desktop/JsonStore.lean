import Mio.Library.Replace

/-!
# Stores that keep their state in one JSON file

The dispatch ledger, the continuity store, and the workspace bindings of the desktop application
each keep a map in one JSON file, and their `load` and `persist` are written out three times with
the same steps. `JsonStore` is what they differ in, and `JsonStore.load` and `JsonStore.persist` are
those steps.

A persist replaces the file as a whole. It keeps what a reader finds until it returns, with one
exception: it removes the backup before it renames the primary to it, so when there is only a
backup, a call that ends between that removal and the last rename leaves nothing at all
(`JsonStore.Exposes`). `JsonStore.recovers` says that in every run without such a call, a load
returns the state that was persisted last.

The parent directory and the file's name are given: the checks that the path has both are not
modelled.
-/

namespace Mio.Desktop

open Library

/-- Why a store refuses or fails. -/
inductive StoreError where
  | invalid
  | io
  deriving DecidableEq

/-- What the stores differ in. -/
structure JsonStore (α : Type) where
  /-- The limit on the file, in bytes. -/
  maximumBytes : ℕ
  /-- The state when there is no file. -/
  empty : α
  /-- The content of the file for a state. -/
  toVec : α → Option Bytes
  /-- The state in a file's content, with the checks that it passes. -/
  fromSlice : Bytes → Option α

namespace JsonStore

variable {α : Type} (store : JsonStore α)

/-- Which file to load: the primary, the backup if there is no primary, or none. -/
def loadSource : Prog World StoreError (Option Sibling) := do
  if ← pathIsFile .primary then pure (some .primary)
  else if !(← pathExists .primary) && (← pathIsFile .backup) then pure (some .backup)
  else if !(← pathExists .primary) && !(← pathExists .backup) then pure none
  else Prog.throw .invalid

/-- Reads the value: the primary file or its backup, and the empty value when there is none. -/
def load : Prog World StoreError α := do
  match ← loadSource with
  | none => pure store.empty
  | some source =>
    let body ← readToEnd .io source
    Prog.refuse .invalid (body.isEmpty || store.maximumBytes < body.length)
    Prog.ofOption .invalid (store.fromSlice body)

/-- Remove a temporary file, whether it is there or not (`TempGuard`). -/
def removeTemp (temp : Sibling) : Prog World StoreError Unit := removeFile .io temp

/-- Write the temporary file and bring it to the disk. -/
def writeTemp (temp : Sibling) (body : Bytes) : Prog World StoreError Unit := do
  createNew .io temp
  writeAll .io temp body
  quietStep .io

/-- Remove the backup. -/
def removeBackup : Prog World StoreError Unit := do
  if ← pathExists .backup then
    Prog.refuse .invalid !(← pathIsFile .backup)
    removeFile .io .backup

/-- Make the primary the backup. -/
def keepPrimary : Prog World StoreError Unit := do
  if ← pathExists .primary then renameFile .io .primary .backup

/-- Put the temporary file in the place of the primary, and the primary in that of the backup. -/
def replacePrimary (temp : Sibling) : Prog World StoreError Unit := do
  removeBackup
  keepPrimary
  renameTemp .io temp

/-- Writes the value to a temporary file and puts it in the place of the primary one. -/
def persist (value : α) : Prog World StoreError Unit := do
  quietStep .io
  Prog.refuse .invalid ((← pathExists .primary) && !(← pathIsFile .primary))
  let body ← Prog.ofOption .invalid (store.toVec value)
  Prog.refuse .invalid (store.maximumBytes < body.length)
  let sequence ← fetchAdd
  let temp ← Prog.gets fun w => Sibling.temp w.pid sequence
  Prog.onError (removeTemp temp) do
    writeTemp temp body
    replacePrimary temp

/-! ## What a call leaves -/

/-- What a reader finds is as before. -/
@[mk_iff]
structure Kept (before after : World) : Prop where
  regular : after.dir.Regular
  current : after.dir.current = before.dir.current

/-- What a reader finds is the content for the new state. -/
@[mk_iff]
structure Saved (value : α) (after : World) : Prop where
  regular : after.dir.Regular
  current : ∃ body, store.toVec value = some body ∧ body.length ≤ store.maximumBytes ∧
    after.dir.current = some (.file body)

/-- A persist that loses the state. There is only a backup, the persist gets to the step that
removes it, its fifth, and it is stopped at the next one, the last rename. -/
structure Exposes (value : α) (faults : List Fault) (w : World) : Prop where
  primary : w.dir .primary = none
  backup : w.dir.isFile .backup = true
  body : ∃ body, store.toVec value = some body ∧ body.length ≤ store.maximumBytes
  temp : w.dir (.temp w.pid w.sequence) = none
  stopped : ¬Prog.Spares 5 faults

section Specs

variable {store}

/-- What has the same files as a kept world is kept. -/
theorem Kept.sameFiles {first before after : World} (h : Kept first before)
    (hsame : World.SameFiles before after) : Kept first after :=
  ⟨hsame.regular h.regular, hsame.current.trans h.current⟩

/-- The write of a temporary file leaves the file and its backup. -/
theorem writeTemp_wp {pid sequence : ℕ} {body : Bytes} {done : Unit → World → Prop}
    {error : StoreError → World → Prop} {cut : World → Prop} {w : World}
    (hdone : w.dir (.temp pid sequence) = none → ∀ w', World.SameFiles w w' →
      w'.dir (.temp pid sequence) = some (.file body) → done () w')
    (hrest : ∀ w', World.SameFiles w w' → error .io w' ∧ cut w') :
    (writeTemp (.temp pid sequence) body).wp done error cut w := by
  have hsame : ∀ node other, World.SameFiles w
      { w with dir := (w.dir.put (.temp pid sequence) node).put (.temp pid sequence) other } :=
    fun node other => (World.SameFiles.temp w pid sequence node).trans
      (World.SameFiles.temp { w with dir := w.dir.put (.temp pid sequence) node }
        pid sequence other)
  simp only [writeTemp, Prog.wp_bind, wp_createNew, wp_writeAll, wp_quietStep]
  refine ⟨fun hfree => ⟨⟨?_, hrest _ (hsame _ _)⟩, fun n => hrest _ (hsame _ _)⟩,
    hrest w (.refl w)⟩
  exact hdone (Directory.has_eq_false.mp hfree) _ (hsame _ _) (Directory.put_self _ _ _)

/-- The removal of a temporary file leaves the file and its backup, whether it succeeds or not. -/
theorem removeTemp_wp {pid sequence : ℕ} {done : Unit → World → Prop}
    {error : StoreError → World → Prop} {cut : World → Prop} {w : World}
    (h : ∀ w', World.SameFiles w w' → done () w' ∧ error .io w' ∧ cut w') :
    (removeTemp (.temp pid sequence)).wp done error cut w := by
  rw [removeTemp, wp_removeFile]
  exact ⟨fun _ => (h _ (.temp w pid sequence none)).1, (h w (.refl w)).2⟩

/-- With a primary, or without any file, the renames are safe. -/
theorem replacePrimary_wp {pid sequence : ℕ} {body : Bytes} {w : World} (hw : w.dir.Regular)
    (htemp : w.dir (.temp pid sequence) = some (.file body))
    (hsafe : w.dir .primary = none → w.dir .backup = none) :
    (replacePrimary (.temp pid sequence)).wp
      (fun _ w' => w'.dir.Regular ∧ w'.dir.current = some (.file body)) (fun _ => Kept w) (Kept w)
      w := by
  rcases hw.primary with hp | ⟨primary, hp⟩
  · have hb := hsafe hp
    simp [replacePrimary, removeBackup, keepPrimary, renameTemp, Directory.has, Directory.isFile,
      Directory.put_apply, Directory.current, kept_iff, Directory.regular_iff, hp, hb, htemp]
  · rcases hw.backup with hb | ⟨backup, hb⟩
    · simp [replacePrimary, removeBackup, keepPrimary, renameTemp, Directory.has, Directory.isFile,
        Directory.put_apply, Directory.current, kept_iff, Directory.regular_iff, hp, hb, htemp]
    · simp [replacePrimary, removeBackup, keepPrimary, renameTemp, Directory.has, Directory.isFile,
        Directory.put_apply, Directory.current, kept_iff, Directory.regular_iff, hp, hb, htemp]

attribute [local simp] Prog.tryStep_bind Prog.attempt_tryStep_bind Prog.gets_bind Prog.refuse_bind
  Prog.read_bind Prog.step_bind Prog.throw_bind Prog.ite_bind
    Prog.onError_read Prog.onError_step Prog.onError_ite Directory.put_apply in
/-- With only a backup, a persist that gets to its removal is safe when it is not stopped at the
last rename. -/
theorem persist_wpSparing {value : α} {w : World} {old body : Bytes} (hp : w.dir .primary = none)
    (hb : w.dir .backup = some (.file old)) (hvec : store.toVec value = some body)
    (hsize : body.length ≤ store.maximumBytes)
    (htemp : w.dir (.temp w.pid w.sequence) = none) :
    (store.persist value).wpSparing (fun _ => store.Saved value)
    (fun _ => Kept w) (Kept w) 5 w := by
  have hsize' : ¬store.maximumBytes < body.length := by omega
  simp [persist, quietStep, dirStep, pathExists, pathIsFile, createNew, writeAll, removeFile,
    renameFile, replacePrimary, renameTemp, removeTemp, writeTemp, removeBackup, keepPrimary,
    fetchAdd_bind, Prog.ofOption_bind, Prog.wpSparing, Prog.wpSparing_ite, Prog.wp_tryStep, Prog.wp,
    Directory.has, Directory.isFile, Directory.createNew, Directory.remove, Directory.rename,
    Directory.current, saved_iff, kept_iff, Directory.regular_iff,
      hvec, hp, hb, htemp, hsize, hsize']

/-- With a primary, without any file, or where it is refused before the temporary file is written,
a persist is safe. -/
theorem persist_wp {value : α} {w : World} (hw : w.dir.Regular)
    (hsafe : w.dir .primary = none → w.dir .backup ≠ none → ∀ body, store.toVec value = some body →
      body.length ≤ store.maximumBytes → w.dir (.temp w.pid w.sequence) ≠ none) :
    (store.persist value).wp (fun _ => store.Saved value) (fun _ => Kept w) (Kept w) w := by
  have hkept : Kept w w := ⟨hw, rfl⟩
  simp only [persist, Prog.wp_bind, wp_quietStep, wp_pathExists, wp_pathIsFile, Prog.wp_refuse,
    Prog.wp_ofOption, wp_fetchAdd, Prog.wp_gets, Prog.wp_onError]
  refine ⟨⟨fun _ => hkept, fun _ => ⟨fun body hvec => ⟨fun _ => hkept, fun hsize => ?_⟩,
    fun _ => hkept⟩⟩, hkept, hkept⟩
  have hsize' : body.length ≤ store.maximumBytes := by simpa using hsize
  have hcleanup : ∀ w', Kept w w' →
      (removeTemp (.temp w.pid w.sequence)).wp (fun _ => Kept w) (fun _ => Kept w) (Kept w) w' :=
    fun w' h => removeTemp_wp fun _ hsame =>
      ⟨h.sameFiles hsame, h.sameFiles hsame, h.sameFiles hsame⟩
  -- Only once the temporary file is written can the primary or the backup change.
  refine writeTemp_wp ?_ fun w' hsame => ⟨hcleanup _ ⟨hsame.regular hw, ?_⟩, hsame.regular hw, ?_⟩
  · intro hfree w' hsame htemp
    have hcurrent := hsame.current
    have hreplace := replacePrimary_wp (hsame.regular hw) htemp (by
      rw [hsame.primary, hsame.backup]
      intro hp
      by_contra hb
      exact hsafe hp hb body hvec hsize' hfree)
    refine Prog.wp_mono ?_ (fun e w'' h => ?_) (fun w'' h => ?_) _ _ hreplace
    · rintro _ w'' ⟨hregular, hbody⟩
      exact ⟨hregular, body, hvec, hsize', hbody⟩
    · exact hcleanup _ ⟨h.regular, h.current.trans hcurrent⟩
    · exact ⟨h.regular, h.current.trans hcurrent⟩
  all_goals exact hsame.current

/-- A persist that does not expose the state saves the new one, or it leaves what a reader finds. -/
theorem persist_ends {value : α} {faults : List Fault} {w : World} (hw : w.dir.Regular)
    (hsafe : ¬store.Exposes value faults w) :
    Prog.Ends (fun _ => store.Saved value) (fun _ => Kept w) (Kept w)
      ((store.persist value).run faults w) := by
  by_cases honly : (w.dir .primary = none ∧ w.dir .backup ≠ none) ∧
      (∃ body, store.toVec value = some body ∧ body.length ≤ store.maximumBytes) ∧
      w.dir (.temp w.pid w.sequence) = none
  · obtain ⟨⟨hp, hb⟩, ⟨body, hvec, hsize⟩, htemp⟩ := honly
    obtain ⟨old, hold⟩ := hw.backup.resolve_left hb
    have hspares : Prog.Spares 5 faults := by
      by_contra hstopped
      exact hsafe ⟨hp, Directory.isFile_iff.mpr ⟨old, hold⟩, ⟨body, hvec, hsize⟩, htemp, hstopped⟩
    exact Prog.run_wpSparing _ _ _ _ (persist_wpSparing hp hold hvec hsize htemp) hspares
  · refine Prog.run_wp _ _ _ (persist_wp hw fun hp hb body hvec hsize htemp => honly ?_)
    exact ⟨⟨hp, hb⟩, ⟨body, hvec, hsize⟩, htemp⟩

/-- A load returns the empty state or what it has found in a file, and changes nothing. -/
theorem load_wp (w : World) :
    store.load.wp (fun value after => after = w ∧
        (value = store.empty ∨ ∃ body, store.fromSlice body = some value))
      (fun _ after => after = w) (fun after => after = w) w := by
  have hread : ∀ source,
      ((readToEnd StoreError.io source).wp (fun body after =>
        (Prog.refuse StoreError.invalid (body.isEmpty || store.maximumBytes < body.length)).wp
          (fun _ after => (Prog.ofOption StoreError.invalid (store.fromSlice body)).wp
            (fun value after => after = w ∧
              (value = store.empty ∨ ∃ body, store.fromSlice body = some value))
            (fun _ after => after = w) (fun after => after = w) after)
          (fun _ after => after = w) (fun after => after = w) after)
        (fun _ after => after = w) (fun after => after = w) w) := by
    intro source
    simp only [wp_readToEnd, Prog.wp_refuse, Prog.wp_ofOption, and_true, true_and, implies_true]
    exact fun body _ _ value hvalue => .inr ⟨body, hvalue⟩
  simp only [load, loadSource, Prog.wp_bind, Prog.wp_ite, wp_pathIsFile, wp_pathExists,
    Prog.wp_pure, Prog.wp_throw]
  refine ⟨fun _ => hread _, fun _ => ⟨fun _ => hread _, fun _ => ?_⟩⟩
  simp

/-- Without a fault, the renames succeed. -/
theorem replacePrimary_done {pid sequence : ℕ} {body : Bytes} {w : World} (hw : w.dir.Regular)
    (htemp : w.dir (.temp pid sequence) = some (.file body)) :
    (replacePrimary (.temp pid sequence)).wpCalm (fun _ _ => True) (fun _ _ => False) w := by
  rcases hw.primary with hp | ⟨primary, hp⟩ <;> rcases hw.backup with hb | ⟨backup, hb⟩ <;>
    simp [replacePrimary, removeBackup, keepPrimary, renameTemp, Prog.wpCalm_ite, Directory.has,
      Directory.isFile, Directory.put_apply, hp, hb, htemp]

/-- Without a fault, a persist of a state whose file fits returns, as long as the name of its
temporary file is free. -/
theorem persist_calm {value : α} {w : World} {body : Bytes} (hw : w.dir.Regular)
    (htemp : w.dir (.temp w.pid w.sequence) = none) (hvec : store.toVec value = some body)
    (hsize : body.length ≤ store.maximumBytes) : ((store.persist value).run [] w).1 = .done () := by
  have hprimary : (w.dir.has .primary && !w.dir.isFile .primary) = false := by
    rcases hw.primary with hp | ⟨primary, hp⟩ <;> simp [Directory.has, Directory.isFile, hp]
  have hfits : decide (store.maximumBytes < body.length) = false := by
    simp only [decide_eq_false_iff_not]
    omega
  have hcalm : (store.persist value).wpCalm (fun _ _ => True) (fun _ _ => False) w := by
    simp only [persist, Prog.wpCalm_bind, wpCalm_quietStep, wpCalm_pathExists, wpCalm_pathIsFile,
      Prog.wpCalm_refuse, Prog.wpCalm_ofOption hvec, wpCalm_fetchAdd, Prog.wpCalm_gets, hprimary,
      hfits]
    refine Prog.wpCalm_onError ?_
    simp only [writeTemp, Prog.wpCalm_bind, wpCalm_createNew, wpCalm_writeAll, wpCalm_quietStep]
    rw [if_neg (by simp [Directory.has, htemp])]
    have hsame := (World.SameFiles.temp w w.pid w.sequence (some (.file []))).trans
      (World.SameFiles.temp _ w.pid w.sequence (some (.file body)))
    exact replacePrimary_done (hsame.regular hw) (Directory.put_self _ _ _)
  have hends := Prog.run_wpCalm _ w hcalm
  rcases hrun : (store.persist value).run [] w with ⟨_ | _ | _, w'⟩
  · rfl
  · rw [hrun] at hends
    exact hends.elim
  · rw [hrun] at hends
    exact hends.elim

/-- The file and its backup are regular, and no temporary file is left. -/
@[mk_iff]
structure Clean (w : World) : Prop where
  regular : w.dir.Regular
  temps : ∀ pid sequence, w.dir (.temp pid sequence) = none

/-- Without a fault, the renames put the temporary file in its place. -/
theorem replacePrimary_calm {pid sequence : ℕ} {body : Bytes} {w : World} (hw : w.dir.Regular)
    (htemp : w.dir (.temp pid sequence) = some (.file body))
    (htemps : ∀ otherPid other, (otherPid = pid → other ≠ sequence) →
      w.dir (.temp otherPid other) = none) :
    (replacePrimary (.temp pid sequence)).wpCalm (fun _ => Clean) (fun _ _ => False) w := by
  rcases hw.primary with hp | ⟨primary, hp⟩ <;> rcases hw.backup with hb | ⟨backup, hb⟩ <;>
    simp [replacePrimary, removeBackup, keepPrimary, renameTemp, Prog.wpCalm_ite, Directory.has,
      Directory.isFile, Directory.put_apply, clean_iff, Directory.regular_iff, hp, hb, htemp] <;>
    exact htemps

/-- Without a fault, a persist of a state whose file fits returns. -/
theorem persist_run {value : α} {w : World} {body : Bytes} (hw : Clean w)
    (hvec : store.toVec value = some body) (hsize : body.length ≤ store.maximumBytes) :
    ∃ w', (store.persist value).run [] w = (.done (), w') ∧ Clean w' := by
  have htemp := hw.temps w.pid w.sequence
  have hprimary : (w.dir.has .primary && !w.dir.isFile .primary) = false := by
    rcases hw.regular.primary with hp | ⟨primary, hp⟩ <;> simp [Directory.has, Directory.isFile, hp]
  have hfits : decide (store.maximumBytes < body.length) = false := by
    simp only [decide_eq_false_iff_not]
    omega
  have hcalm : (store.persist value).wpCalm (fun _ => Clean) (fun _ _ => False) w := by
    simp only [persist, Prog.wpCalm_bind, wpCalm_quietStep, wpCalm_pathExists, wpCalm_pathIsFile,
      Prog.wpCalm_refuse, Prog.wpCalm_ofOption hvec, wpCalm_fetchAdd, Prog.wpCalm_gets, hprimary,
      hfits]
    refine Prog.wpCalm_onError ?_
    simp only [writeTemp, Prog.wpCalm_bind, wpCalm_createNew, wpCalm_writeAll, wpCalm_quietStep]
    rw [if_neg (by simp [Directory.has, htemp])]
    -- The temporary file is new, and no other file is touched before the two renames.
    refine replacePrimary_calm ?_ (Directory.put_self _ _ _) fun otherPid other hne => ?_
    · have hsame := (World.SameFiles.temp w w.pid w.sequence (some (.file []))).trans
        (World.SameFiles.temp _ w.pid w.sequence (some (.file body)))
      exact hsame.regular hw.regular
    · have hname : Sibling.temp otherPid other ≠ .temp w.pid w.sequence := by
        intro heq
        cases heq
        exact hne rfl rfl
      dsimp only
      rw [Directory.put_of_ne _ hname, Directory.put_of_ne _ hname]
      exact hw.temps otherPid other
  -- Nothing fails in this run, so of the three ends only the first is left.
  have hends := Prog.run_wpCalm _ w hcalm
  rcases hrun : (store.persist value).run [] w with ⟨_ | _ | _, w'⟩
  · rw [hrun] at hends
    exact ⟨w', rfl, hends⟩
  · rw [hrun] at hends
    exact hends.elim
  · rw [hrun] at hends
    exact hends.elim

end Specs

/-! ## Runs -/

/-- The stores' types: what is persisted comes back when it is read. -/
structure Lawful (Valid : α → Prop) : Prop where
  roundTrip : ∀ value body, Valid value → store.toVec value = some body →
    body ≠ [] ∧ store.fromSlice body = some value

/-- The files, and the state that was last persisted with success, if any was. -/
structure State (α : Type) where
  world : World
  saved : Option α

/-- What can happen: a persist, under some schedule of faults, or a new process. -/
inductive Event (α : Type) where
  | persist (value : α) (faults : List Fault)
  | restart (pid : ℕ)

/-- What an event leaves. -/
def apply (state : State α) : Event α → State α
  | .persist value faults =>
    match (store.persist value).run faults state.world with
    | (.done _, world) => { world, saved := some value }
    | (_, world) => { state with world }
  | .restart pid => { state with world := state.world.restart pid }

/-- What a run of events leaves. -/
def run (events : List (Event α)) (state : State α) : State α := events.foldl store.apply state

/-- No persist of the run exposes the state. -/
def Unexposed : List (Event α) → State α → Prop
  | [], _ => True
  | event :: events, state =>
    (∀ value faults, event = .persist value faults → ¬store.Exposes value faults state.world) ∧
      Unexposed events (store.apply state event)

/-- Every state that the run persists is valid. -/
def PersistsValid (Valid : α → Prop) (events : List (Event α)) : Prop :=
  ∀ value faults, Event.persist value faults ∈ events → Valid value

/-- A load gives the state that was last persisted with success, and the empty one before that. -/
def Recovers (Valid : α → Prop) : Prop :=
  ∀ (start : World), start.dir .primary = none → start.dir .backup = none →
    ∀ events, PersistsValid Valid events → store.Unexposed events ⟨start, none⟩ →
      let state := store.run events ⟨start, none⟩
      store.load.run [] state.world = (.done (state.saved.getD store.empty), state.world)

/-- The invariant of a run: a reader finds the content for the state that was persisted last. -/
structure Consistent (Valid : α → Prop) (state : State α) : Prop where
  regular : state.world.dir.Regular
  saved : match state.saved with
    | none => state.world.dir.current = none
    | some value => Valid value ∧ store.Saved value state.world

section Runs

variable {store} {Valid : α → Prop}

/-- An event outside of the exposed condition keeps the invariant. -/
theorem Consistent.apply {state : State α} (h : store.Consistent Valid state) {event : Event α}
    (hvalid : ∀ value faults, event = .persist value faults → Valid value)
    (hsafe : ∀ value faults, event = .persist value faults →
      ¬store.Exposes value faults state.world) :
    store.Consistent Valid (store.apply state event) := by
  obtain ⟨world, saved⟩ := state
  cases event with
  | restart pid =>
    cases saved with
    | none => exact ⟨h.regular, h.saved⟩
    | some value => exact ⟨h.regular, h.saved.1, h.saved.2.regular, h.saved.2.current⟩
  | persist value faults =>
    have hends := persist_ends h.regular (hsafe value faults rfl)
    -- Where the call does not return, a reader still finds what it found.
    have hkept : ∀ after, Kept world after → store.Consistent Valid ⟨after, saved⟩ := by
      intro after hkept
      refine ⟨hkept.regular, ?_⟩
      have hsaved := h.saved
      cases saved with
      | none => exact hkept.current.trans hsaved
      | some old =>
        obtain ⟨hold, hsaved⟩ := hsaved
        refine ⟨hold, hkept.regular, ?_⟩
        rw [hkept.current]
        exact hsaved.current
    rw [JsonStore.apply]
    rcases hrun : (store.persist value).run faults world with ⟨result, after⟩
    rw [hrun] at hends
    cases result with
    | done _ => exact ⟨hends.regular, hvalid value faults rfl, hends⟩
    | error e => exact hkept after hends
    | cut => exact hkept after hends

/-- The invariant holds along a run, by induction on its events. -/
theorem Consistent.run {state : State α} (h : store.Consistent Valid state)
    {events : List (Event α)} (hvalid : PersistsValid Valid events)
    (hsafe : store.Unexposed events state) : store.Consistent Valid (store.run events state) := by
  induction events generalizing state with
  | nil => exact h
  | cons event events ih =>
    refine ih (h.apply ?_ hsafe.1) (fun value faults hmem => ?_) hsafe.2
    · rintro value faults rfl
      exact hvalid value faults List.mem_cons_self
    · exact hvalid value faults (List.mem_cons_of_mem _ hmem)

attribute [local simp] Prog.gets_bind Prog.ite_bind Prog.refuse_bind Prog.read_bind Prog.step_bind
  Prog.throw_bind Prog.tryStep_bind Prog.run_ite Prog.run_step_nil in
/-- A load finds what the invariant says. -/
theorem Consistent.load (hlawful : store.Lawful Valid) {state : State α}
    (h : store.Consistent Valid state) :
    store.load.run [] state.world = (.done (state.saved.getD store.empty), state.world) := by
  obtain ⟨world, saved⟩ := state
  have hregular : world.dir.Regular := h.regular
  cases saved with
  -- Nothing was saved, and neither file is there.
  | none =>
    obtain ⟨hp, hb⟩ : world.dir .primary = none ∧ world.dir .backup = none := by
      simpa [Directory.current] using h.saved
    simp [JsonStore.load, loadSource, pathIsFile, pathExists,
      Directory.isFile, Directory.has, hp, hb]
  | some value =>
    obtain ⟨hvalid, -, body, hvec, hsize, hcurrent⟩ := h.saved
    obtain ⟨hne, hdecode⟩ := hlawful.roundTrip value body hvalid hvec
    have hcurrent : world.dir.current = some (.file body) := hcurrent
    have hsize' : ¬store.maximumBytes < body.length := by omega
    have hdone : Prog.ofOption StoreError.invalid (store.fromSlice body) =
        (pure value : Prog World StoreError α) := by
      rw [hdecode]
      rfl
    -- What was saved is in the backup if the primary is missing, and in the primary otherwise.
    rcases hregular.primary with hp | ⟨primary, hp⟩
    · have hb : world.dir .backup = some (.file body) := by
        rwa [Directory.current_of_no_primary hp] at hcurrent
      simp [JsonStore.load, loadSource, pathIsFile, pathExists, readToEnd, quietStep, dirStep,
        Directory.isFile, Directory.has, hp, hb, hne, hsize', hdone]
    · obtain rfl : primary = body := by
        rw [Directory.current_of_primary hp] at hcurrent
        simpa using hcurrent
      simp [JsonStore.load, loadSource, pathIsFile, pathExists, readToEnd, quietStep, dirStep,
        Directory.isFile, Directory.has, hp, hne, hsize', hdone]

/-- In every run without a call that exposes the state, a load recovers the state that was persisted
last. -/
theorem recovers (hlawful : store.Lawful Valid) : store.Recovers Valid := by
  intro start hp hb events hvalid hsafe
  have hstart : store.Consistent Valid ⟨start, none⟩ :=
    ⟨⟨.inl hp, .inl hb⟩, (Directory.current_of_no_primary hp).trans hb⟩
  exact (hstart.run hvalid hsafe).load hlawful

end Runs

end JsonStore

end Mio.Desktop
