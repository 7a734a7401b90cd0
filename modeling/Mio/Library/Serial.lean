import Mio.Library.Pool

/-!
# Routines that take effect when they return

`Pool.returns` lists the routines of a run that return a value, in the order in which they do. Where
a view of the state sees no call of a routine but the last one of a routine that returns,
`Kept.view_run` says that it sees what the routines do that have returned, one after the other.
-/

namespace Mio.Library

variable {σ ε α β ι : Type}

namespace Routine

/-- The value that the routine has returned. -/
def value : Routine σ ε α → Option α
  | ret a => some a
  | throw _ => none
  | call _ _ => none

/-- A routine that runs has no value yet. -/
theorem value_of_isRunning {p : Routine σ ε α} (h : p.isRunning = true) : p.value = none := by
  cases p with
  | ret a => cases h
  | throw e => rfl
  | call effect next => rfl

section Views

variable {view : σ → β} {past : List (σ × σ)}

/-- The view sees none of the calls. -/
def Unmoved (view : σ → β) (past : List (σ × σ)) : Prop := ∀ call ∈ past, view call.2 = view call.1

/-- The view sees the last call, as `f`, and none before it. -/
def Commits (view : σ → β) (f : β → β) (past : List (σ × σ)) : Prop :=
  ∃ before s s', past = before ++ [(s, s')] ∧ Unmoved view before ∧ view s' = f (view s)

/-- Without a call the view has not moved. -/
theorem unmoved_nil : Unmoved view ([] : List (σ × σ)) := fun _ h => absurd h List.not_mem_nil

/-- A call that leaves the view leaves it unmoved. -/
theorem Unmoved.concat (h : Unmoved view past) {s s' : σ} (hview : view s' = view s) :
    Unmoved view (past ++ [(s, s')]) := by
  intro call hcall
  rcases List.mem_append.mp hcall with hold | hnew
  · exact h call hold
  · obtain rfl := List.mem_singleton.mp hnew
    exact hview

/-- What was unmoved was unmoved before. -/
theorem Unmoved.of_append {more : List (σ × σ)} (h : Unmoved view (past ++ more)) :
    Unmoved view past :=
  fun call hcall => h call (List.mem_append_left _ hcall)

/-- The last call is the commit, if the view has not moved before it. -/
theorem commits_concat {f : β → β} {s s' : σ} :
    Commits view f (past ++ [(s, s')]) ↔ Unmoved view past ∧ view s' = f (view s) := by
  constructor
  · rintro ⟨before, t, t', hpast, hunmoved, hview⟩
    obtain ⟨rfl, hlast⟩ := List.append_inj' hpast rfl
    cases hlast
    exact ⟨hunmoved, hview⟩
  · rintro ⟨hunmoved, hview⟩
    exact ⟨past, s, s', rfl, hunmoved, hview⟩

/-- Without a call nothing is committed. -/
theorem not_commits_nil {f : β → β} : ¬Commits view f ([] : List (σ × σ)) := by
  rintro ⟨before, s, s', hpast, -⟩
  exact List.append_ne_nil_of_right_ne_nil before (List.cons_ne_nil _ _) hpast.symm

/-- Before the last call there is nothing to see. -/
theorem Commits.unmoved {f : β → β} {more : List (σ × σ)} (h : Commits view f (past ++ more))
    (hmore : more ≠ []) : Unmoved view past := by
  rcases List.eq_nil_or_concat more with rfl | ⟨init, ⟨s, s'⟩, rfl⟩
  · exact absurd rfl hmore
  · rw [List.concat_eq_append, ← List.append_assoc, commits_concat] at h
    exact h.1.of_append

/-- A last call that changes nothing is not seen. -/
theorem Commits.unmoved_of_same {f : β → β} (h : Commits view f past) (hsame : ∀ b, f b = b) :
    Unmoved view past := by
  obtain ⟨before, s, s', rfl, hunmoved, hview⟩ := h
  exact hunmoved.concat (hview.trans (hsame _))

variable {rely guarantee : σ → σ → Prop} {done : α → List (σ × σ) → σ → Prop}
  {error : ε → List (σ × σ) → σ → Prop} {effect : α → β → β} {s : σ}

/-- Of a routine that has not returned the view has seen nothing. -/
theorem Stands.unmoved {p : Routine σ ε α} (h : Stands rely guarantee done error p past s)
    (hrefl : ∀ s, rely s s)
    (hdone : ∀ a past s, done a past s →
      Commits view (effect a) past ∨ Unmoved view past ∧ effect a = id)
    (herror : ∀ e past s, error e past s → Unmoved view past) (hvalue : p.value = none) :
    Unmoved view past := by
  obtain ⟨more, s', hmore, hends⟩ := h.ends hrefl
  -- The calls so far are a start of those of a routine that has ended.
  rcases hends with ⟨a, ha⟩ | ⟨e, he⟩
  · rcases hdone a _ s' ha with hcommits | ⟨hunmoved, -⟩
    · cases p with
      | ret b => cases hvalue
      | throw e => exact herror e past s h
      | call effect' next => exact hcommits.unmoved (hmore rfl)
    · exact hunmoved.of_append
  · exact (herror e _ s' he).of_append

end Views

end Routine

open Routine

namespace Pool

/-- A routine that has returned. -/
structure Return (ι α : Type) where
  task : ℕ
  label : ι
  value : α

/-- What the routine `i` has returned. -/
def returned (pool : Pool ι σ ε α) (i : ℕ) : Option (Return ι α) :=
  (pool.tasks i).bind fun task => task.rest.bind fun p => p.value.map (⟨i, task.label, ·⟩)

/-- The task that a move is of. -/
def Move.task : Move ι → Option ℕ
  | .start i _ => some i
  | .call i _ => some i
  | .stop => none

section Returns

variable (routine : ℕ → ι → Routine σ ε α)

/-- The routine that returns by the move. -/
def returning (move : Move ι) (pool : Pool ι σ ε α) : Option (Return ι α) :=
  move.task.bind fun i =>
    if (pool.returned i).isSome then none else (pool.apply routine move).returned i

/-- The routines that return in a run, in the order in which they do. -/
def returns : List (Move ι) → Pool ι σ ε α → List (Return ι α)
  | [], _ => []
  | move :: moves, pool =>
    (pool.returning routine move).toList ++ returns moves (pool.apply routine move)

variable {routine} {pool : Pool ι σ ε α}

/-- What a task has returned, by its routine. -/
theorem returned_of_tasks {i : ℕ} {label : ι} {p : Routine σ ε α}
    (h : pool.tasks i = some ⟨label, some p⟩) :
    pool.returned i = p.value.map (⟨i, label, ·⟩) := by
  unfold returned
  rw [h]
  rfl

/-- A task that was not started has returned nothing. -/
theorem returned_of_none {i : ℕ} (h : pool.tasks i = none) : pool.returned i = none := by
  unfold returned
  rw [h]
  rfl

/-- A task has returned when its routine is at its end. -/
theorem returned_eq_some_iff {i : ℕ} {r : Return ι α} :
    pool.returned i = some r ↔ r.task = i ∧ pool.tasks i = some ⟨r.label, some (.ret r.value)⟩ := by
  constructor
  · intro h
    obtain ⟨⟨label, rest⟩, htask, h⟩ := Option.bind_eq_some_iff.mp h
    obtain ⟨p, hrest, h⟩ := Option.bind_eq_some_iff.mp h
    obtain ⟨a, hvalue, rfl⟩ := Option.map_eq_some_iff.mp h
    dsimp only at hrest
    subst hrest
    cases p with
    | ret b =>
      cases hvalue
      exact ⟨rfl, htask⟩
    | throw e => cases hvalue
    | call effect next => cases hvalue
  · rintro ⟨rfl, htask⟩
    rw [returned_of_tasks htask]
    rfl

/-- A stop changes nothing that was returned. -/
theorem returned_stopped (i : ℕ) : pool.stopped.returned i = pool.returned i := by
  unfold returned stopped
  dsimp only
  rcases pool.tasks i with _ | ⟨label, rest⟩
  · rfl
  · rw [Option.map_some, Option.bind_some, Option.bind_some]
    split
    · -- What runs has returned nothing, before it is stopped as after.
      rename_i hrunning
      cases rest with
      | none => rfl
      | some p =>
        rw [Option.bind_none, Option.bind_some, value_of_isRunning hrunning]
        rfl
    · rfl

/-- A task leaves what the others have returned. -/
theorem returned_update {i j : ℕ} (hne : j ≠ i) (state : σ) (task : Option (Task ι σ ε α))
    (trace : List (Call σ)) :
    (⟨state, Function.update pool.tasks i task, trace⟩ : Pool ι σ ε α).returned j =
      pool.returned j := by
  unfold returned
  dsimp only
  rw [Function.update_of_ne hne]

/-- A move is about one routine, which has not returned before. -/
theorem returned_apply (move : Move ι) (i : ℕ) :
    (pool.apply routine move).returned i = pool.returned i ∨
      move.task = some i ∧ pool.returned i = none := by
  cases move with
  | stop => exact .inl (returned_stopped i)
  | start j label =>
    show (pool.start routine j label).returned i = _ ∨ _
    unfold Pool.start
    -- A task that is there is not started again.
    split
    · exact .inl rfl
    · rename_i hj
      by_cases hne : i = j
      · subst hne
        exact .inr ⟨rfl, returned_of_none hj⟩
      · exact .inl (returned_update hne _ _ _)
  | call j fault =>
    show (pool.call j fault).returned i = _ ∨ _
    rcases pool.call_cases j fault with hsame | ⟨label, p, hj, hrunning, hmade⟩
    · rw [hsame]
      exact .inl rfl
    · by_cases hne : i = j
      · subst hne
        right
        rw [returned_of_tasks hj, value_of_isRunning hrunning]
        exact ⟨rfl, rfl⟩
      · left
        have hothers : (pool.make j label p fault).returned i = pool.returned i :=
          returned_update hne _ _ _
        rcases hmade with hmade | hmade
        · rw [hmade, hothers]
        · rw [hmade, returned_stopped, hothers]

/-- What has returned stays so. -/
theorem returned_run {i : ℕ} {r : Return ι α} (h : pool.returned i = some r)
    (moves : List (Move ι)) :
    (pool.run routine moves).returned i = some r := by
  induction moves generalizing pool with
  | nil => exact h
  | cons move moves ih =>
    apply ih
    rcases returned_apply move i with hsame | ⟨-, hnone⟩
    · exact hsame.trans h
    · rw [hnone] at h
      cases h

/-- A task returns by a move when it has returned after it and not before. -/
theorem returning_eq_some_iff {move : Move ι} {r : Return ι α} :
    pool.returning routine move = some r ↔
      pool.returned r.task = none ∧ (pool.apply routine move).returned r.task = some r := by
  constructor
  · intro h
    obtain ⟨i, -, h⟩ := Option.bind_eq_some_iff.mp h
    split at h
    · cases h
    · rename_i hnone
      obtain ⟨rfl, -⟩ := returned_eq_some_iff.mp h
      exact ⟨by simpa using hnone, h⟩
  · rintro ⟨hnone, hsome⟩
    rcases returned_apply move r.task with hsame | ⟨htask, -⟩
    · rw [hsame, hnone] at hsome
      cases hsome
    · unfold returning
      rw [htask, Option.bind_some, hnone]
      exact hsome

/-- A task that was not there is started. -/
theorem start_of_none {i : ℕ} {label : ι} (hi : pool.tasks i = none) :
    pool.start routine i label = { pool with
      tasks := Function.update pool.tasks i (some ⟨label, some (routine i label)⟩) } := by
  unfold Pool.start
  rw [hi]

/-- A routine that has nothing to call has returned once it has started. -/
theorem returning_start {i : ℕ} {label : ι} (hi : pool.tasks i = none) :
    pool.returning routine (.start i label) = (routine i label).value.map (⟨i, label, ·⟩) := by
  show (if (pool.returned i).isSome then none else (pool.start routine i label).returned i) = _
  rw [returned_of_none hi, start_of_none hi]
  exact returned_of_tasks (Function.update_self ..)

/-- A call of a routine leaves it where the call leads, whether or not the process stops then. -/
theorem returning_call {i : ℕ} {label : ι} {p : Routine σ ε α} {fault : Fault}
    (hi : pool.tasks i = some ⟨label, some p⟩) (hrunning : p.isRunning = true)
    (hmade : pool.call i fault = pool.make i label p fault ∨
      pool.call i fault = (pool.make i label p fault).stopped) :
    pool.returning routine (.call i fault) =
      (p.advance fault pool.state).1.value.map (⟨i, label, ·⟩) := by
  have hmake : (pool.make i label p fault).returned i =
      (p.advance fault pool.state).1.value.map (⟨i, label, ·⟩) :=
    returned_of_tasks (Function.update_self ..)
  have hreturned : (pool.call i fault).returned i = (pool.make i label p fault).returned i := by
    rcases hmade with hmade | hmade
    · rw [hmade]
    · rw [hmade, returned_stopped]
  show (if (pool.returned i).isSome then none else (pool.call i fault).returned i) = _
  rw [hreturned, hmake, returned_of_tasks hi, value_of_isRunning hrunning]
  rfl

/-- Nothing returns by a move that changes nothing. -/
theorem returning_of_same {move : Move ι} (h : pool.apply routine move = pool) :
    pool.returning routine move = none := by
  rw [Option.eq_none_iff_forall_ne_some]
  intro r hr
  obtain ⟨hnone, hsome⟩ := returning_eq_some_iff.mp hr
  rw [h, hnone] at hsome
  cases hsome

/-- The routines that return in a run are those that have at its end and had not at its beginning.
-/
theorem mem_returns {moves : List (Move ι)} {r : Return ι α} :
    r ∈ pool.returns routine moves ↔
      pool.returned r.task = none ∧ (pool.run routine moves).returned r.task = some r := by
  induction moves generalizing pool with
  | nil =>
    constructor
    · exact fun h => absurd h List.not_mem_nil
    · rintro ⟨hnone, hsome⟩
      have hsame : pool.returned r.task = some r := hsome
      rw [hnone] at hsame
      cases hsame
  | cons move moves ih =>
    show r ∈ (pool.returning routine move).toList ++ _ ↔ _
    rw [List.mem_append, Option.mem_toList, returning_eq_some_iff, ih]
    constructor
    · -- It returns by this move or later.
      rintro (⟨hnone, hsome⟩ | ⟨hnone, hsome⟩)
      · exact ⟨hnone, returned_run hsome moves⟩
      · refine ⟨?_, hsome⟩
        rcases returned_apply move r.task with hsame | ⟨-, hbefore⟩
        · exact hsame.symm.trans hnone
        · exact hbefore
    · -- Whether it has returned after this move says which.
      rintro ⟨hnone, hsome⟩
      rcases hnext : (pool.apply routine move).returned r.task with _ | r'
      · exact .inr ⟨rfl, hsome⟩
      · left
        have hsame := (returned_run hnext moves).symm.trans hsome
        exact ⟨hnone, hsame⟩

/-- A routine returns once. -/
theorem returns_nodup (moves : List (Move ι)) :
    ((pool.returns routine moves).map Return.task).Nodup := by
  induction moves generalizing pool with
  | nil => exact List.nodup_nil
  | cons move moves ih =>
    show (((pool.returning routine move).toList ++ _).map Return.task).Nodup
    rcases hreturning : pool.returning routine move with _ | r
    · exact ih
    · -- It has returned after this move, so it is not among those that return later.
      refine List.nodup_cons.mpr ⟨fun hmem => ?_, ih⟩
      obtain ⟨r', hr', htask⟩ := List.mem_map.mp hmem
      have hnone := (mem_returns.mp hr').1
      rw [htask, (returning_eq_some_iff.mp hreturning).2] at hnone
      cases hnone

/-- What returns in two runs, one after the other. -/
theorem returns_append (moves moves' : List (Move ι)) :
    pool.returns routine (moves ++ moves') =
      pool.returns routine moves ++ (pool.run routine moves).returns routine moves' := by
  induction moves generalizing pool with
  | nil => rfl
  | cons move moves ih =>
    show (pool.returning routine move).toList ++ returns routine (moves ++ moves') _ = (_ ++ _) ++ _
    rw [ih, List.append_assoc]
    rfl

end Returns

/-! ## Views -/

section Views

variable {routine : ℕ → ι → Routine σ ε α} {contract : ℕ → ι → Routine.Contract σ ε α}
  {compatible : ι → ι → Prop} {first : σ} {pool : Pool ι σ ε α} {view : σ → β}
  {effect : ι → α → β → β}

/-- What the routines do that have returned, one after the other. -/
def replay (effect : ι → α → β → β) (returns : List (Return ι α)) (b : β) : β :=
  returns.foldl (fun b r => effect r.label r.value b) b

/-- Replaying two lists, one after the other. -/
theorem replay_append (returns returns' : List (Return ι α)) (b : β) :
    replay effect (returns ++ returns') b = replay effect returns' (replay effect returns b) :=
  List.foldl_append ..

/-- By their contracts, the routines take effect when they return. -/
structure Serial (contract : ℕ → ι → Routine.Contract σ ε α) (view : σ → β)
    (effect : ι → α → β → β) : Prop where
  done : ∀ i label a past s, (contract i label).done a past s →
    Commits view (effect label a) past ∨ Unmoved view past ∧ effect label a = id
  error : ∀ i label e past s, (contract i label).error e past s → Unmoved view past

/-- A call is seen when the routine returns by it, and then as the effect of the routine. -/
theorem Kept.view_make (hcontracts : Contracts routine contract compatible)
    (hserial : Serial contract view effect) (h : Kept contract compatible first pool) {i : ℕ}
    {label : ι} {p : Routine σ ε α} (hi : pool.tasks i = some ⟨label, some p⟩)
    (hrunning : p.isRunning = true) (fault : Fault) :
    view (pool.make i label p fault).state =
      (p.advance fault pool.state).1.value.elim id (effect label) (view pool.state) := by
  have hpast := pool.past_make i label p fault i
  rw [if_pos rfl] at hpast
  obtain ⟨s, hstands, -⟩ := (h.make hcontracts hi hrunning fault).standing i label
    (p.advance fault pool.state).1 (Function.update_self ..)
  rw [hpast] at hstands
  have hsame : ∀ {past : List (σ × σ)} {t t' : σ},
      Unmoved view (past ++ [(t, t')]) → view t' = view t :=
    fun hunmoved => hunmoved _ (List.mem_append_right _ (List.mem_singleton_self _))
  -- What is left of the routine has a value exactly when it returns by this call.
  rcases hvalue : (p.advance fault pool.state).1.value with _ | a
  · exact hsame (hstands.unmoved (hcontracts.refl i label) (hserial.done i label)
      (hserial.error i label)
      hvalue)
  · generalize (p.advance fault pool.state).1 = q at hstands hvalue
    cases q with
    | throw e => cases hvalue
    | call effect' next => cases hvalue
    | ret b =>
      cases hvalue
      rcases hserial.done i label a _ s hstands with hcommits | ⟨hunmoved, hid⟩
      · exact (commits_concat.mp hcommits).2
      · rw [Option.elim_some, hid]
        exact hsame hunmoved

/-- A move changes the view by the effect of what returns by it. -/
theorem Kept.view_apply (hcontracts : Contracts routine contract compatible)
    (hserial : Serial contract view effect) (h : Kept contract compatible first pool)
    (move : Move ι) :
    view (pool.apply routine move).state =
      replay effect (pool.returning routine move).toList (view pool.state) := by
  cases move with
  | stop => rfl
  | start i label =>
    show view (pool.start routine i label).state = _
    rcases hi : pool.tasks i with _ | task
    · rw [returning_start hi, start_of_none hi]
      have hstarts := hcontracts.starts i label pool.state ((h.waiting i hi).1 label)
      -- A routine that returns without a call has no effect.
      generalize routine i label = p at hstarts
      cases p with
      | throw e => rfl
      | call effect' next => rfl
      | ret a =>
        rcases hserial.done i label a [] pool.state hstarts with hcommits | ⟨-, hid⟩
        · -- There is no call by which it could have.
          exact absurd hcommits not_commits_nil
        · show view pool.state = effect label a (view pool.state)
          rw [hid]
          rfl
    · have hsame : pool.apply routine (.start i label) = pool := by
        show pool.start routine i label = pool
        unfold Pool.start
        rw [hi]
      rw [returning_of_same hsame]
      exact congrArg (fun pool => view pool.state) hsame
  | call i fault =>
    show view (pool.call i fault).state = _
    rcases pool.call_cases i fault with hsame | ⟨label, p, hi, hrunning, hmade⟩
    · rw [returning_of_same (show pool.apply routine (.call i fault) = pool from hsame), hsame]
      rfl
    · have hstate : (pool.call i fault).state = (pool.make i label p fault).state := by
        rcases hmade with hmade | hmade <;> rw [hmade]
        rfl
      rw [hstate, h.view_make hcontracts hserial hi hrunning fault,
        returning_call hi hrunning hmade]
      rcases (p.advance fault pool.state).1.value with _ | a <;> rfl

/-- What is seen at the end of a run is what the routines do that return in it, in the order in
which they do. -/
theorem Kept.view_run (hcontracts : Contracts routine contract compatible)
    (hserial : Serial contract view effect) (h : Kept contract compatible first pool)
    {moves : List (Move ι)} (hapart : Apart routine compatible moves pool) :
    view (pool.run routine moves).state =
      replay effect (pool.returns routine moves) (view pool.state) := by
  induction moves generalizing pool with
  | nil => rfl
  | cons move moves ih =>
    show view ((pool.apply routine move).run routine moves).state =
      replay effect ((pool.returning routine move).toList ++ _) _
    rw [ih (h.apply hcontracts hapart.1) hapart.2, h.view_apply hcontracts hserial move,
      replay_append]

/-- Of a routine that has not returned nothing was seen. -/
theorem Kept.unmoved (hcontracts : Contracts routine contract compatible)
    (hserial : Serial contract view effect) (h : Kept contract compatible first pool) {i : ℕ}
    {task : Task ι σ ε α} (hi : pool.tasks i = some task) (hnone : pool.returned i = none) :
    Unmoved view (pool.past i) := by
  obtain ⟨label, rest⟩ := task
  cases rest with
  | none =>
    -- The routine was stopped while it ran.
    obtain ⟨p, s, hrunning, hstands⟩ := h.halted i label hi
    exact hstands.unmoved (hcontracts.refl i label) (hserial.done i label) (hserial.error i label)
      (value_of_isRunning hrunning)
  | some p =>
    obtain ⟨s, hstands, -⟩ := h.standing i label p hi
    rw [returned_of_tasks hi] at hnone
    exact hstands.unmoved (hcontracts.refl i label) (hserial.done i label) (hserial.error i label)
      (Option.map_eq_none_iff.mp hnone)

/-- What has returned has kept its contract. -/
theorem Kept.done (h : Kept contract compatible first pool) {i : ℕ} {r : Return ι α}
    (hi : pool.returned i = some r) : ∃ s, (contract i r.label).done r.value (pool.past i) s := by
  obtain ⟨-, htask⟩ := returned_eq_some_iff.mp hi
  obtain ⟨s, hstands, -⟩ := h.standing i r.label _ htask
  exact ⟨s, hstands⟩

/-- What each call of a trace relates, the trace relates from its beginning to its end. -/
theorem related_of_chain {R : σ → σ → Prop} (hrefl : ∀ s, R s s)
    (htrans : ∀ s s' s'', R s s' → R s' s'' → R s s'') {trace : List (Call σ)}
    (hchain : trace.IsChain fun call call' => call.after = call'.before)
    (hcalls : ∀ call ∈ trace, R call.before call.after)
    (hbegins : ∀ call, trace.head? = some call → call.before = first) :
    R first (trace.getLast?.elim first Call.after) := by
  induction trace generalizing first with
  | nil => exact hrefl first
  | cons call trace ih =>
    obtain rfl := hbegins call rfl
    obtain ⟨hnext, hrest⟩ := List.isChain_cons.mp hchain
    -- The rest of the calls begins where this one has led.
    have hlater : R call.after (trace.getLast?.elim call.after Call.after) :=
      ih hrest (fun call' hcall' => hcalls call' (List.mem_cons_of_mem _ hcall'))
        fun call' hcall' => (hnext call' hcall').symm
    refine htrans _ _ _ (hcalls call (List.mem_cons_self ..)) ?_
    cases trace with
    | nil => exact hlater
    | cons call' trace => exact hlater

/-- What no call of a routine breaks holds from the beginning to the end. -/
theorem Kept.related (h : Kept contract compatible first pool) {R : σ → σ → Prop}
    (hrefl : ∀ s, R s s) (htrans : ∀ s s' s'', R s s' → R s' s'' → R s s'')
    (hcall : ∀ i label s s', (contract i label).guarantee s s' → R s s') : R first pool.state := by
  rw [h.ends]
  refine related_of_chain hrefl htrans h.chained (fun call hmem => ?_) h.begins
  -- A call that has failed may have left the state as it was.
  obtain ⟨task, -, hsame | hguarantee⟩ := h.guaranteed call hmem
  · rw [hsame]
    exact hrefl _
  · exact hcall _ _ _ _ hguarantee

/-- What the calls of all routines but one relate, a trace relates from the last call of that one to
its end. -/
theorem related_of_last {R : σ → σ → Prop} {i : ℕ} (hrefl : ∀ s, R s s)
    (htrans : ∀ s s' s'', R s s' → R s' s'' → R s s'') {trace : List (Call σ)}
    (hchain : trace.IsChain fun call call' => call.after = call'.before)
    (hcalls : ∀ call ∈ trace, call.task ≠ i → R call.before call.after)
    (hbegins : ∀ call, trace.head? = some call → call.before = first) :
    R ((trace.filter (·.task = i)).getLast?.elim first Call.after)
      (trace.getLast?.elim first Call.after) := by
  induction trace generalizing first with
  | nil => exact hrefl first
  | cons call trace ih =>
    obtain rfl := hbegins call rfl
    obtain ⟨hnext, hrest⟩ := List.isChain_cons.mp hchain
    have hlater : R ((trace.filter (·.task = i)).getLast?.elim call.after Call.after)
        (trace.getLast?.elim call.after Call.after) :=
      ih hrest (fun call' hcall' => hcalls call' (List.mem_cons_of_mem _ hcall'))
        fun call' hcall' => (hnext call' hcall').symm
    have hend : (call :: trace).getLast?.elim call.before Call.after =
        trace.getLast?.elim call.after Call.after := by
      rw [List.getLast?_cons]
      cases trace.getLast? <;> rfl
    rw [hend]
    by_cases htask : call.task = i
    · rw [List.filter_cons, if_pos (decide_eq_true htask), List.getLast?_cons]
      cases hlast : (trace.filter (·.task = i)).getLast? with
      | none => rwa [hlast] at hlater
      | some last => rwa [hlast] at hlater
    · rw [List.filter_cons, if_neg (by simpa using htask)]
      cases hlast : (trace.filter (·.task = i)).getLast? with
      | none =>
        -- The routine makes no call at all, so that the whole trace counts.
        rw [hlast] at hlater
        exact htrans _ _ _ (hcalls call (List.mem_cons_self ..) htask) hlater
      | some last => rwa [hlast] at hlater

/-- What no call of another routine breaks holds from the last call of a routine to the end. -/
theorem Kept.related_last (h : Kept contract compatible first pool) (R : σ → σ → Prop) (i : ℕ)
    (hrefl : ∀ s, R s s) (htrans : ∀ s s' s'', R s s' → R s' s'' → R s s'')
    (hcall : ∀ j label s s', j ≠ i → (contract j label).guarantee s s' → R s s') :
    R ((pool.past i).getLast?.elim first Prod.snd) pool.state := by
  have hlast : (pool.past i).getLast?.elim first Prod.snd =
      (pool.trace.filter (·.task = i)).getLast?.elim first Call.after := by
    rw [past, List.getLast?_map]
    cases (pool.trace.filter (·.task = i)).getLast? <;> rfl
  rw [hlast, h.ends]
  refine related_of_last hrefl htrans h.chained (fun call hmem hne => ?_) h.begins
  obtain ⟨task, -, hsame | hguarantee⟩ := h.guaranteed call hmem
  · rw [hsame]
    exact hrefl _
  · exact hcall _ _ _ _ hne hguarantee

/-- A part of a run is as much apart. -/
theorem Apart.of_append {moves moves' : List (Move ι)}
    (h : Apart routine compatible (moves ++ moves') pool) :
    Apart routine compatible moves pool := by
  induction moves generalizing pool with
  | nil => trivial
  | cons move moves ih => exact ⟨h.1, ih h.2⟩

/-- A stop changes no label. -/
theorem label_stopped {j : ℕ} {task : Task ι σ ε α} (h : pool.stopped.tasks j = some task) :
    ∃ task', pool.tasks j = some task' ∧ task'.label = task.label := by
  obtain ⟨task', htask', rfl⟩ := Option.map_eq_some_iff.mp h
  refine ⟨task', htask', ?_⟩
  split <;> rfl

/-- A routine keeps its label, and has it from its start. -/
theorem label_apply {move : Move ι} {j : ℕ} {task : Task ι σ ε α}
    (h : (pool.apply routine move).tasks j = some task) :
    (∃ task', pool.tasks j = some task' ∧ task'.label = task.label) ∨
      move = .start j task.label := by
  cases move with
  | stop => exact .inl (label_stopped h)
  | start i label =>
    change (pool.start routine i label).tasks j = some task at h
    unfold Pool.start at h
    split at h
    · exact .inl ⟨task, h, rfl⟩
    · by_cases hne : j = i
      · subst hne
        dsimp only at h
        rw [Function.update_self] at h
        cases h
        exact .inr rfl
      · dsimp only at h
        rw [Function.update_of_ne hne] at h
        exact .inl ⟨task, h, rfl⟩
  | call i fault =>
    left
    -- A call makes a step of one task, and it stops the pool where the fault cuts it.
    change (pool.call i fault).tasks j = some task at h
    rcases pool.call_cases i fault with hsame | ⟨label, p, hi, hrunning, hmade | hmade⟩
    · rw [hsame] at h
      exact ⟨task, h, rfl⟩
    · rw [hmade] at h
      obtain ⟨task', htask', hlabel, -⟩ := task_make hi hrunning h
      exact ⟨task', htask', hlabel⟩
    · rw [hmade] at h
      obtain ⟨task', htask', hlabel⟩ := label_stopped h
      obtain ⟨task'', htask'', hlabel', -⟩ := task_make hi hrunning htask'
      exact ⟨task'', htask'', hlabel'.trans hlabel⟩

/-- Routines that are all compatible may run in any order. -/
theorem apart_of_forall {P : ι → Prop}
    (hP : ∀ label label', P label → P label' → compatible label label')
    {moves : List (Move ι)} (hmoves : ∀ i label, .start i label ∈ moves → P label)
    (hpool : ∀ j task, pool.tasks j = some task → P task.label) :
    Apart routine compatible moves pool := by
  induction moves generalizing pool with
  | nil => trivial
  | cons move moves ih =>
    refine ⟨fun i label hstart j task hj _ => ?_, ih (fun i label hmem => ?_) fun j task hj => ?_⟩
    · have hlabel := hmoves i label (hstart ▸ List.mem_cons_self ..)
      exact ⟨hP _ _ hlabel (hpool j task hj), hP _ _ (hpool j task hj) hlabel⟩
    · exact hmoves i label (List.mem_cons_of_mem _ hmem)
    · rcases label_apply hj with ⟨task', htask', hlabel⟩ | rfl
      · rw [← hlabel]
        exact hpool j task' htask'
      · exact hmoves j task.label (List.mem_cons_self ..)

/-- The call that a move makes is one of a routine that runs, on the state that the move is made in.
-/
theorem mem_trace_apply {move : Move ι} {call : Call σ}
    (h : call ∈ (pool.apply routine move).trace) :
    call ∈ pool.trace ∨ call.before = pool.state ∧
      ∃ task, pool.tasks call.task = some task ∧ task.isRunning = true := by
  cases move with
  | stop => exact .inl h
  | start i label =>
    left
    have hsame : (pool.start routine i label).trace = pool.trace := by
      unfold Pool.start
      split <;> rfl
    rw [← hsame]
    exact h
  | call i fault =>
    have hcall : call ∈ (pool.call i fault).trace := h
    rcases pool.call_cases i fault with hsame | ⟨label, p, hi, hrunning, hmade⟩
    · rw [hsame] at hcall
      exact .inl hcall
    · have htrace : (pool.call i fault).trace =
          pool.trace ++ [⟨i, pool.state, (p.advance fault pool.state).2⟩] := by
        rcases hmade with hmade | hmade <;> rw [hmade] <;> rfl
      rw [htrace] at hcall
      rcases List.mem_append.mp hcall with hold | hnew
      · exact .inl hold
      · obtain rfl := List.mem_singleton.mp hnew
        exact .inr ⟨rfl, _, hi, hrunning⟩

/-- Every call of a run was made where a start of the run had taken the state, by a routine that
ran. -/
theorem mem_trace_run {moves : List (Move ι)} {call : Call σ}
    (h : call ∈ (pool.run routine moves).trace) : call ∈ pool.trace ∨
      ∃ before, before <+: moves ∧ call.before = (pool.run routine before).state ∧
        ∃ task, (pool.run routine before).tasks call.task = some task ∧ task.isRunning = true := by
  induction moves generalizing pool with
  | nil => exact .inl h
  | cons move moves ih =>
    rcases ih h with hhere | ⟨before, hbefore, hmade⟩
    · rcases mem_trace_apply hhere with hold | hnew
      · exact .inl hold
      · exact .inr ⟨[], List.nil_prefix, hnew⟩
    · exact .inr ⟨move :: before, List.cons_prefix_cons.mpr ⟨rfl, hbefore⟩, hmade⟩

end Views

end Pool

end Mio.Library
