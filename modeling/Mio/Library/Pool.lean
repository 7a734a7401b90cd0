import Mathlib.Data.List.Chain
import Mathlib.Logic.Function.Basic
import Mio.Library.Faults

/-!
# Routines that run at the same time

A `Routine` is a program that makes calls, one after the other. A call acts on a state that the
routine shares with others, at one moment, and gives an answer; what the others do comes between two
calls. A `Pool` runs routines over one state in any order. Routines are started while others run,
their calls can fail, and the process can stop, which ends every routine that runs.

A `Contract` says of a routine what it relies on, which is what the others may do between two of its
calls, what it guarantees of each of its own calls, and what its own calls have done when it has
ended. `Routine.Stands` is the weakest precondition of a contract, computed from the tree.
`Kept.run` puts contracts together: as long as only routines run at the same time that are
compatible, every routine of every run keeps its contract.
-/

namespace Mio.Library

variable {σ ε α β ι : Type}

/-! ## Routines -/

/-- A program that makes calls, with errors `ε` and values `α`. -/
inductive Routine (σ ε α : Type) where
  /-- Return a value. -/
  | ret (a : α)
  /-- Return an error. -/
  | throw (e : ε)
  /-- Make a call: what it does to the state, and how the routine goes on from what befell the call
  and the state that the call was made in. -/
  | call (effect : Fault → σ → σ) (next : Fault → σ → Routine σ ε α)

namespace Routine

/-- Sequential composition. -/
protected def bind : Routine σ ε α → (α → Routine σ ε β) → Routine σ ε β
  | ret a, rest => rest a
  | throw e, _ => throw e
  | call effect next, rest => call effect fun fault s => (next fault s).bind rest

instance : Monad (Routine σ ε) where
  pure := ret
  bind := Routine.bind

instance : LawfulMonad (Routine σ ε) := by
  refine LawfulMonad.mk' _ ?_ (fun _ _ => rfl) ?_
  · intro α p
    show p.bind (fun a => ret a) = p
    induction p with
    | ret a => rfl
    | throw e => rfl
    | call effect next ih => exact congrArg (call effect) (funext fun fault => funext (ih fault))
  · intro α β γ p f g
    show (p.bind f).bind g = p.bind fun a => (f a).bind g
    induction p with
    | ret a => rfl
    | throw e => rfl
    | call effect next ih => exact congrArg (call effect) (funext fun fault => funext (ih fault))

/-- Run a routine and, when it ends in an error, `cleanup` before the error is returned, whose own
error is dropped. -/
def onError (cleanup : Routine σ ε Unit) : Routine σ ε α → Routine σ ε α
  | ret a => ret a
  | throw e => dropped e cleanup
  | call effect next => call effect fun fault s => onError cleanup (next fault s)
where
  /-- Return the error `e` at the end. -/
  dropped (e : ε) : Routine σ ε Unit → Routine σ ε α
    | ret _ => throw e
    | throw _ => throw e
    | call effect next => call effect fun fault s => dropped e (next fault s)

/-- A call that acts on the state and gives an answer, or that the state refuses with an error. A
call that fails for another reason gives the error `e` and leaves `torn progress`. -/
def invoke (e : ε) (act : σ → Except ε (α × σ)) (torn : ℕ → σ → σ) : Routine σ ε α :=
  call
    (fun fault s =>
      match fault with
      | .proceed =>
        match act s with
        | .ok (_, s') => s'
        | .error _ => s
      | .fail n => torn n s
      | .cut n => torn n s)
    fun fault s =>
      match fault with
      | .proceed =>
        match act s with
        | .ok (a, _) => ret a
        | .error e' => throw e'
      | _ => throw e

/-- A call that only asks, and fails with `e`. -/
def ask (e : ε) (f : σ → α) : Routine σ ε α := invoke e (fun s => .ok (f s, s)) fun _ s => s

/-- A call that cannot fail. -/
def atomically (act : σ → α × σ) : Routine σ ε α :=
  call (fun _ s => (act s).2) fun _ s => ret (act s).1

/-- Return the error `e` when the condition holds. -/
def refuse (e : ε) (c : Bool) : Routine σ ε Unit := if c then throw e else ret ()

/-- A value that may be missing, with the error for when it is. -/
def ofOption (e : ε) : Option α → Routine σ ε α
  | some a => ret a
  | none => throw e

/-- Whether there is a call to make. -/
def isRunning : Routine σ ε α → Bool
  | ret _ => false
  | throw _ => false
  | call _ _ => true

/-- Make the next call: what is left of the routine, and the state. -/
def advance (fault : Fault) : Routine σ ε α → σ → Routine σ ε α × σ
  | ret a, s => (ret a, s)
  | throw e, s => (throw e, s)
  | call effect next, s => (next fault s, effect fault s)

end Routine

/-! ## Contracts -/

/-- What a routine relies on and guarantees, and what holds of its own calls, in their order, when
it has ended. Of a call the state before it and after it is kept. -/
structure Routine.Contract (σ ε α : Type) where
  /-- What it is started in. -/
  pre : σ → Prop
  /-- What the others may do between two of its calls. -/
  rely : σ → σ → Prop
  /-- What each of its calls that changes the state does. -/
  guarantee : σ → σ → Prop
  done : α → List (σ × σ) → σ → Prop
  error : ε → List (σ × σ) → σ → Prop

namespace Routine

section Stands

variable (rely guarantee : σ → σ → Prop)

/-- The weakest precondition under what the others do, for the calls made so far. -/
def Stands (done : α → List (σ × σ) → σ → Prop) (error : ε → List (σ × σ) → σ → Prop) :
    Routine σ ε α → List (σ × σ) → σ → Prop
  | ret a, past, s => done a past s
  | throw e, past, s => error e past s
  | call effect next, past, s =>
    ∀ s', rely s s' → ∀ fault,
      (effect fault s' = s' ∨ guarantee s' (effect fault s')) ∧
        Stands done error (next fault s') (past ++ [(s', effect fault s')]) (effect fault s')

variable {rely guarantee} {done : α → List (σ × σ) → σ → Prop} {error : ε → List (σ × σ) → σ → Prop}
  {past : List (σ × σ)} {s : σ}

/-- Two routines, one after the other. -/
theorem stands_bind (p : Routine σ ε α) (rest : α → Routine σ ε β)
    {done : β → List (σ × σ) → σ → Prop} :
    Stands rely guarantee done error (p >>= rest) past s ↔
      Stands rely guarantee (fun a => Stands rely guarantee done error (rest a))
        error p past s := by
  change Stands rely guarantee done error (p.bind rest) past s ↔ _
  induction p generalizing past s with
  | ret a => rfl
  | throw e => rfl
  | call effect next ih =>
    exact forall₂_congr fun s' _ => forall_congr' fun fault => and_congr_right fun _ => ih fault s'

/-- A cleanup that runs before the error goes on. -/
theorem stands_dropped (e : ε) (cleanup : Routine σ ε Unit) :
    Stands rely guarantee done error (onError.dropped e cleanup : Routine σ ε α) past s ↔
      Stands rely guarantee (fun _ => error e) (fun _ => error e) cleanup past s := by
  induction cleanup generalizing past s with
  | ret a => rfl
  | throw e => rfl
  | call effect next ih =>
    exact forall₂_congr fun s' _ => forall_congr' fun fault => and_congr_right fun _ => ih fault s'

/-- A routine with a cleanup. -/
theorem stands_onError (cleanup : Routine σ ε Unit) (p : Routine σ ε α) :
    Stands rely guarantee done error (onError cleanup p) past s ↔
      Stands rely guarantee done
        (fun e => Stands rely guarantee (fun _ => error e) (fun _ => error e) cleanup)
          p past s := by
  induction p generalizing past s with
  | ret a => rfl
  | throw e => exact stands_dropped e cleanup
  | call effect next ih =>
    exact forall₂_congr fun s' _ => forall_congr' fun fault => and_congr_right fun _ => ih fault s'

/-- A call is taken, refused by the state, or torn by a fault. -/
theorem stands_invoke {e : ε} {act : σ → Except ε (α × σ)} {torn : ℕ → σ → σ}
    (htaken : ∀ s', rely s s' → ∀ a t, act s' = .ok (a, t) →
      (t = s' ∨ guarantee s' t) ∧ done a (past ++ [(s', t)]) t)
    (hrefused : ∀ s', rely s s' → ∀ e', act s' = .error e' → error e' (past ++ [(s', s')]) s')
    (htorn : ∀ s', rely s s' → ∀ n, (torn n s' = s' ∨ guarantee s' (torn n s')) ∧
      error e (past ++ [(s', torn n s')]) (torn n s')) :
    Stands rely guarantee done error (invoke e act torn) past s := by
  intro s' hs fault
  cases fault with
  | fail n => exact htorn s' hs n
  | cut n => exact htorn s' hs n
  | proceed =>
    rcases hact : act s' with e' | ⟨a, t⟩
    · simp only [hact]
      exact ⟨.inl trivial, hrefused s' hs e' hact⟩
    · simp only [hact]
      exact htaken s' hs a t hact

/-- A call that cannot fail. -/
theorem stands_atomically {act : σ → α × σ}
    (h : ∀ s', rely s s' → guarantee s' (act s').2 ∧
      done (act s').1 (past ++ [(s', (act s').2)]) (act s').2) :
    Stands rely guarantee done error (atomically act : Routine σ ε α) past s :=
  fun s' hs _ => ⟨.inr (h s' hs).1, (h s' hs).2⟩

/-- Less may be promised. -/
theorem stands_mono {done' : α → List (σ × σ) → σ → Prop} {error' : ε → List (σ × σ) → σ → Prop}
    {p : Routine σ ε α} (h : Stands rely guarantee done error p past s)
    (hdone : ∀ a past s, done a past s → done' a past s)
    (herror : ∀ e past s, error e past s → error' e past s) :
    Stands rely guarantee done' error' p past s := by
  induction p generalizing past s with
  | ret a => exact hdone _ _ _ h
  | throw e => exact herror _ _ _ h
  | call effect next ih =>
    exact fun s' hs fault => ⟨(h s' hs fault).1, ih fault s' (h s' hs fault).2⟩

/-- Until its next call, a routine stands whatever the others do. -/
theorem stands_of_rely (htrans : ∀ s s' s'', rely s s' → rely s' s'' → rely s s'')
    {p : Routine σ ε α} (hrunning : p.isRunning = true)
    (h : Stands rely guarantee done error p past s) {s' : σ} (hs : rely s s') :
    Stands rely guarantee done error p past s' := by
  cases p with
  | ret a => cases hrunning
  | throw e => cases hrunning
  | call effect next => exact fun t ht => h t (htrans _ _ _ hs ht)

/-- A call of a routine that stands leaves the state, or is one that it guarantees, and what is left
of the routine stands. -/
theorem Stands.advance {p : Routine σ ε α} (h : Stands rely guarantee done error p past s)
    (hrefl : ∀ s, rely s s) (hrunning : p.isRunning = true) (fault : Fault) :
    ((p.advance fault s).2 = s ∨ guarantee s (p.advance fault s).2) ∧
      Stands rely guarantee done error (p.advance fault s).1 (past ++ [(s, (p.advance fault s).2)])
        (p.advance fault s).2 := by
  cases p with
  | ret a => cases hrunning
  | throw e => cases hrunning
  | call effect next => exact h s (hrefl s) fault

/-- A routine that stands comes to an end of its contract, with at least one more call if it runs.
-/
theorem Stands.ends {p : Routine σ ε α} (h : Stands rely guarantee done error p past s)
    (hrefl : ∀ s, rely s s) :
    ∃ more s', (p.isRunning = true → more ≠ []) ∧
      ((∃ a, done a (past ++ more) s') ∨ ∃ e, error e (past ++ more) s') := by
  induction p generalizing past s with
  | ret a =>
    refine ⟨[], s, fun hrunning => absurd hrunning Bool.false_ne_true, .inl ⟨a, ?_⟩⟩
    rw [List.append_nil]
    exact h
  | throw e =>
    refine ⟨[], s, fun hrunning => absurd hrunning Bool.false_ne_true, .inr ⟨e, ?_⟩⟩
    rw [List.append_nil]
    exact h
  | call effect next ih =>
    -- The others do nothing more, and no call fails.
    obtain ⟨more, s', -, hends⟩ := ih .proceed s (h s (hrefl s) .proceed).2
    rw [List.append_assoc] at hends
    exact ⟨[(s, effect .proceed s)] ++ more, s', fun _ => List.cons_ne_nil _ _, hends⟩

/-! ## Triples -/

/-- From what holds of the calls so far and the state to what holds at the end. -/
def Triple (rely guarantee : σ → σ → Prop) (holds : List (σ × σ) → σ → Prop) (p : Routine σ ε α)
    (done : α → List (σ × σ) → σ → Prop) (error : ε → List (σ × σ) → σ → Prop) : Prop :=
  ∀ past s, holds past s → Stands rely guarantee done error p past s

/-- The others do not break it. -/
def Stable (rely : σ → σ → Prop) (holds : List (σ × σ) → σ → Prop) : Prop :=
  ∀ past s s', rely s s' → holds past s → holds past s'

variable {holds : List (σ × σ) → σ → Prop}

/-- A routine that only returns. -/
theorem triple_pure {a : α} (h : ∀ past s, holds past s → done a past s) :
    Triple rely guarantee holds (pure a : Routine σ ε α) done error := h

/-- A routine that throws. -/
theorem triple_throw {e : ε} (h : ∀ past s, holds past s → error e past s) :
    Triple rely guarantee holds (throw e : Routine σ ε α) done error := h

/-- Two routines, one after the other. -/
theorem triple_bind {p : Routine σ ε α} {rest : α → Routine σ ε β}
    {between : α → List (σ × σ) → σ → Prop} {done : β → List (σ × σ) → σ → Prop}
    (hp : Triple rely guarantee holds p between error)
    (hrest : ∀ a, Triple rely guarantee (between a) (rest a) done error) :
    Triple rely guarantee holds (p >>= rest) done error := by
  intro past s h
  rw [stands_bind]
  exact stands_mono (hp past s h) hrest fun _ _ _ herror => herror

/-- A routine with a cleanup. -/
theorem triple_onError {cleanup : Routine σ ε Unit} {p : Routine σ ε α}
    {failed : ε → List (σ × σ) → σ → Prop} (hp : Triple rely guarantee holds p done failed)
    (hcleanup : ∀ e, Triple rely guarantee (failed e) cleanup (fun _ => error e) fun _ => error e) :
    Triple rely guarantee holds (onError cleanup p) done error := by
  intro past s h
  rw [stands_onError]
  exact stands_mono (hp past s h) (fun _ _ _ hdone => hdone) hcleanup

/-- What comes after a check knows that it was passed. -/
theorem triple_refuse_bind {e : ε} {c : Bool} {rest : Unit → Routine σ ε α}
    (herror : c = true → ∀ past s, holds past s → error e past s)
    (hrest : c = false → Triple rely guarantee holds (rest ()) done error) :
    Triple rely guarantee holds (refuse e c >>= rest) done error := by
  cases c with
  | true => exact herror rfl
  | false => exact hrest rfl

/-- What comes after a value that is there knows it. -/
theorem triple_ofOption_bind {e : ε} {o : Option α} {rest : α → Routine σ ε β}
    {done : β → List (σ × σ) → σ → Prop}
    (hrest : ∀ a, o = some a → Triple rely guarantee holds (rest a) done error)
    (herror : o = none → ∀ past s, holds past s → error e past s) :
    Triple rely guarantee holds (ofOption e o >>= rest) done error := by
  cases o with
  | none => exact herror rfl
  | some a => exact hrest a rfl

/-- A question leaves the state as the others have left it. -/
theorem triple_ask {e : ε} {f : σ → α} (hstable : Stable rely holds)
    (hdone : ∀ past s, holds past s → done (f s) (past ++ [(s, s)]) s)
    (herror : ∀ past s, holds past s → error e (past ++ [(s, s)]) s) :
    Triple rely guarantee holds (ask e f) done error := by
  intro past s h
  apply stands_invoke
  · rintro s' hs a t hact
    cases hact
    exact ⟨.inl rfl, hdone past s' (hstable past s s' hs h)⟩
  · rintro s' hs e' hact
    cases hact
  · exact fun s' hs n => ⟨.inl rfl, herror past s' (hstable past s s' hs h)⟩

/-- A call that may fail or be torn. -/
theorem triple_invoke {e : ε} {act : σ → Except ε (α × σ)} {torn : ℕ → σ → σ}
    (hstable : Stable rely holds)
    (htaken : ∀ past s, holds past s → ∀ a t, act s = .ok (a, t) →
      (t = s ∨ guarantee s t) ∧ done a (past ++ [(s, t)]) t)
    (hrefused : ∀ past s, holds past s → ∀ e', act s = .error e' → error e' (past ++ [(s, s)]) s)
    (htorn : ∀ past s, holds past s → ∀ n, (torn n s = s ∨ guarantee s (torn n s)) ∧
      error e (past ++ [(s, torn n s)]) (torn n s)) :
    Triple rely guarantee holds (invoke e act torn) done error := by
  intro past s h
  exact stands_invoke (fun s' hs => htaken past s' (hstable past s s' hs h))
    (fun s' hs => hrefused past s' (hstable past s s' hs h))
    fun s' hs => htorn past s' (hstable past s s' hs h)

/-- A call that cannot fail. -/
theorem triple_atomically {act : σ → α × σ} (hstable : Stable rely holds)
    (h : ∀ past s, holds past s → guarantee s (act s).2 ∧
      done (act s).1 (past ++ [(s, (act s).2)]) (act s).2) :
    Triple rely guarantee holds (atomically act : Routine σ ε α) done error :=
  fun past s hs => stands_atomically fun s' hs' => h past s' (hstable past s s' hs' hs)

/-- More may be asked before, and less promised after. -/
theorem Triple.mono {holds' : List (σ × σ) → σ → Prop} {p : Routine σ ε α}
    {done' : α → List (σ × σ) → σ → Prop} {error' : ε → List (σ × σ) → σ → Prop}
    (h : Triple rely guarantee holds p done error)
    (hholds : ∀ past s, holds' past s → holds past s)
    (hdone : ∀ a past s, done a past s → done' a past s)
    (herror : ∀ e past s, error e past s → error' e past s) :
    Triple rely guarantee holds' p done' error' :=
  fun past s hs => stands_mono (h past s (hholds past s hs)) hdone herror

/-- Less may be promised of the errors. -/
theorem Triple.mono_error {p : Routine σ ε α} {error' : ε → List (σ × σ) → σ → Prop}
    (h : Triple rely guarantee holds p done error)
    (herror : ∀ e past s, error e past s → error' e past s) :
    Triple rely guarantee holds p done error' :=
  h.mono (fun _ _ hs => hs) (fun _ _ _ hs => hs) herror

/-- Less may be promised of the answers. -/
theorem Triple.mono_done {p : Routine σ ε α} {done' : α → List (σ × σ) → σ → Prop}
    (h : Triple rely guarantee holds p done error)
    (hdone : ∀ a past s, done a past s → done' a past s) :
    Triple rely guarantee holds p done' error :=
  h.mono (fun _ _ hs => hs) hdone fun _ _ _ hs => hs

/-- What neither the others nor the calls of the routine break is kept. -/
theorem Triple.frame {p : Routine σ ε α} (h : Triple rely guarantee holds p done error)
    {more : σ → Prop} (hrely : ∀ s s', rely s s' → more s → more s')
    (hguarantee : ∀ s s', guarantee s s' → more s → more s') :
    Triple rely guarantee (fun past s => holds past s ∧ more s) p
      (fun a past s => done a past s ∧ more s) fun e past s => error e past s ∧ more s := by
  have hstands : ∀ (p : Routine σ ε α) past s, Stands rely guarantee done error p past s → more s →
      Stands rely guarantee (fun a past s => done a past s ∧ more s)
        (fun e past s => error e past s ∧ more s) p past s := by
    intro p
    induction p with
    | ret a => exact fun _ _ hdone hmore => ⟨hdone, hmore⟩
    | throw e => exact fun _ _ herror hmore => ⟨herror, hmore⟩
    | call effect next ih =>
      intro past s hp hmore s' hs fault
      obtain ⟨heffect, hnext⟩ := hp s' hs fault
      have hmore' := hrely s s' hs hmore
      refine ⟨heffect, ih fault s' _ _ hnext ?_⟩
      rcases heffect with hsame | hmade
      · rw [hsame]
        exact hmore'
      · exact hguarantee _ _ hmade hmore'
  exact fun past s hs => hstands p past s (h past s hs.1) hs.2

/-- Neither the others nor a question break it. -/
structure Steady (rely : σ → σ → Prop) (holds : List (σ × σ) → σ → Prop) : Prop where
  stable : Stable rely holds
  asks : ∀ past s, holds past s → holds (past ++ [(s, s)]) s

/-- Two steady properties are steady together. -/
theorem Steady.and (h : Steady rely holds) {more : List (σ × σ) → σ → Prop}
    (hmore : Steady rely more) : Steady rely fun past s => holds past s ∧ more past s where
  stable past s s' hs hheld :=
    ⟨h.stable past s s' hs hheld.1, hmore.stable past s s' hs hheld.2⟩
  asks past s hheld := ⟨h.asks past s hheld.1, hmore.asks past s hheld.2⟩

/-- A property of the state alone. -/
theorem steady_state {now : σ → Prop} (h : ∀ s s', rely s s' → now s → now s') :
    Steady rely fun _ => now where
  stable _ s s' hs hnow := h s s' hs hnow
  asks _ _ hnow := hnow

/-- What was so at a call, as far as it still is. -/
theorem steady_call {seen : σ → σ → Prop} (h : ∀ s s' s'', rely s' s'' → seen s s' → seen s s'') :
    Steady rely fun past s => ∃ made ∈ past, seen made.1 s where
  stable past s s' hs hseen := by
    obtain ⟨made, hmade, hseen⟩ := hseen
    exact ⟨made, hmade, h _ s s' hs hseen⟩
  asks past s hseen := by
    obtain ⟨made, hmade, hseen⟩ := hseen
    exact ⟨made, List.mem_append_left _ hmade, hseen⟩

/-- A steady property holds after a look, and the answer is of that moment. -/
theorem Steady.triple_ask (h : Steady rely holds) {e : ε} {f : σ → α} :
    Triple rely guarantee holds (ask e f)
      (fun a past s => holds past s ∧ a = f s ∧ (s, s) ∈ past) fun _ => holds :=
  Routine.triple_ask h.stable
    (fun past s hs =>
      ⟨h.asks past s hs, rfl, List.mem_append_right _ (List.mem_singleton_self _)⟩) h.asks

end Stands

end Routine

/-! ## Pools -/

/-- A routine of a pool. There is nothing left of it once the process has stopped. -/
structure Pool.Task (ι σ ε α : Type) where
  label : ι
  rest : Option (Routine σ ε α)

/-- Whether the routine has a call to make. -/
def Pool.Task.isRunning (task : Pool.Task ι σ ε α) : Bool := task.rest.elim false Routine.isRunning

/-- A call, with the routine that has made it. -/
structure Pool.Call (σ : Type) where
  task : ℕ
  before : σ
  after : σ

/-- The state, the routines that were started, and the calls so far. -/
structure Pool (ι σ ε α : Type) where
  state : σ
  tasks : ℕ → Option (Pool.Task ι σ ε α)
  trace : List (Pool.Call σ)

/-- What happens to a pool. -/
inductive Pool.Move (ι : Type) where
  /-- A routine is started, under a number that none has had. -/
  | start (task : ℕ) (label : ι)
  /-- A routine makes its next call. If it is cut off, the process stops. -/
  | call (task : ℕ) (fault : Fault)
  /-- The process stops. -/
  | stop

namespace Pool

variable (routine : ℕ → ι → Routine σ ε α)

/-- Nothing is left of what runs. -/
def stopped (pool : Pool ι σ ε α) : Pool ι σ ε α :=
  { pool with
    tasks := fun i => (pool.tasks i).map fun task =>
      if task.isRunning then { task with rest := none } else task }

/-- The routine `i` makes its next call. -/
def make (i : ℕ) (label : ι) (p : Routine σ ε α) (fault : Fault) (pool : Pool ι σ ε α) :
    Pool ι σ ε α where
  state := (p.advance fault pool.state).2
  tasks := Function.update pool.tasks i (some ⟨label, some (p.advance fault pool.state).1⟩)
  trace := pool.trace ++ [⟨i, pool.state, (p.advance fault pool.state).2⟩]

/-- A routine is started under a number that none has had. -/
def start (i : ℕ) (label : ι) (pool : Pool ι σ ε α) : Pool ι σ ε α :=
  match pool.tasks i with
  | some _ => pool
  | none => { pool with
      tasks := Function.update pool.tasks i (some ⟨label, some (routine i label)⟩) }

/-- The routine `i`, where it has a call to make, makes it. -/
def call (i : ℕ) (fault : Fault) (pool : Pool ι σ ε α) : Pool ι σ ε α :=
  match pool.tasks i with
  | some ⟨label, some p⟩ =>
    if p.isRunning then
      match fault with
      | .cut _ => (pool.make i label p fault).stopped
      | _ => pool.make i label p fault
    else pool
  | _ => pool

/-- One move of the pool. -/
def apply (pool : Pool ι σ ε α) : Move ι → Pool ι σ ε α
  | .start i label => pool.start routine i label
  | .call i fault => pool.call i fault
  | .stop => pool.stopped

/-- A run of moves. -/
def run (moves : List (Move ι)) (pool : Pool ι σ ε α) : Pool ι σ ε α :=
  moves.foldl (apply routine) pool

/-- A pool without a routine. -/
def new (s : σ) : Pool ι σ ε α := ⟨s, fun _ => none, []⟩

/-- The calls of one routine, in their order. -/
def past (pool : Pool ι σ ε α) (i : ℕ) : List (σ × σ) :=
  (pool.trace.filter (·.task = i)).map fun call => (call.before, call.after)

/-- A call is made by a routine that runs, or is none. -/
theorem call_cases (pool : Pool ι σ ε α) (i : ℕ) (fault : Fault) :
    pool.call i fault = pool ∨ ∃ label p, pool.tasks i = some ⟨label, some p⟩ ∧
      p.isRunning = true ∧ (pool.call i fault = pool.make i label p fault ∨
        pool.call i fault = (pool.make i label p fault).stopped) := by
  unfold call
  split
  · rename_i label p hi
    split
    · rename_i hrunning
      refine .inr ⟨label, p, hi, hrunning, ?_⟩
      cases fault with
      | proceed => exact .inl rfl
      | fail n => exact .inl rfl
      | cut n => exact .inr rfl
    · exact .inl rfl
  · exact .inl rfl

/-- Every routine is started beside ones that it is compatible with. -/
def Apart (compatible : ι → ι → Prop) : List (Move ι) → Pool ι σ ε α → Prop
  | [], _ => True
  | move :: moves, pool =>
    (∀ i label, move = .start i label → ∀ j task, pool.tasks j = some task → task.isRunning = true →
      compatible label task.label ∧ compatible task.label label) ∧
      Apart compatible moves (pool.apply routine move)

/-! ## Every routine keeps its contract -/

/-- The contracts fit together, and the routines meet them. -/
structure Contracts (routine : ℕ → ι → Routine σ ε α) (contract : ℕ → ι → Routine.Contract σ ε α)
    (compatible : ι → ι → Prop) : Prop where
  refl : ∀ i label s, (contract i label).rely s s
  trans : ∀ i label s s' s'', (contract i label).rely s s' → (contract i label).rely s' s'' →
    (contract i label).rely s s''
  starts : ∀ i label s, (contract i label).pre s →
    Routine.Stands (contract i label).rely (contract i label).guarantee (contract i label).done
      (contract i label).error (routine i label) [] s
  meets : ∀ i j label label' s s', i ≠ j → compatible label label' →
    (contract i label).guarantee s s' → (contract j label').rely s s'
  waits : ∀ i j label label' s s', i ≠ j → (contract i label).guarantee s s' →
    (contract j label').pre s → (contract j label').pre s'

section Kept

variable {routine : ℕ → ι → Routine σ ε α} (contract : ℕ → ι → Routine.Contract σ ε α)
  {compatible : ι → ι → Prop} {pool : Pool ι σ ε α}

/-- What is left of the routine `i` stands, where the others have taken the state to since. -/
def Standing (pool : Pool ι σ ε α) (i : ℕ) (label : ι) (p : Routine σ ε α) : Prop :=
  ∃ s, Routine.Stands (contract i label).rely (contract i label).guarantee (contract i label).done
      (contract i label).error p (pool.past i) s ∧
    (p.isRunning = true → (contract i label).rely s pool.state)

/-- What holds of a pool along its runs. -/
structure Kept (compatible : ι → ι → Prop) (first : σ) (pool : Pool ι σ ε α) : Prop where
  /-- A routine that has not been started can be, and has made no call. -/
  waiting : ∀ i, pool.tasks i = none →
    (∀ label, (contract i label).pre pool.state) ∧ ∀ call ∈ pool.trace, call.task ≠ i
  standing : ∀ i label p, pool.tasks i = some ⟨label, some p⟩ → pool.Standing contract i label p
  /-- Of a routine that was stopped, what would have been left stands. -/
  halted : ∀ i label, pool.tasks i = some ⟨label, none⟩ → ∃ p s, p.isRunning = true ∧
    Routine.Stands (contract i label).rely (contract i label).guarantee (contract i label).done
      (contract i label).error p (pool.past i) s
  apart : ∀ i j task task', i ≠ j → pool.tasks i = some task → pool.tasks j = some task' →
    task.isRunning = true → task'.isRunning = true → compatible task.label task'.label
  /-- A call leaves the state, or is one that its routine guarantees. -/
  guaranteed : ∀ call ∈ pool.trace, ∃ task, pool.tasks call.task = some task ∧
    (call.after = call.before ∨
      (contract call.task task.label).guarantee call.before call.after)
  /-- Each call is made where the last one has left the state. -/
  chained : pool.trace.IsChain fun call call' => call.after = call'.before
  begins : ∀ call, pool.trace.head? = some call → call.before = first
  ends : pool.state = pool.trace.getLast?.elim first Call.after

variable {contract} {first : σ}

/-- The invariant holds of a new pool. -/
theorem kept_new (hpre : ∀ i label, (contract i label).pre first) :
    Kept contract compatible first (new first : Pool ι σ ε α) where
  waiting i _ := ⟨hpre i, fun _ h => absurd h List.not_mem_nil⟩
  standing _ _ _ h := absurd h (by simp [new])
  halted _ _ h := absurd h (by simp [new])
  apart _ _ _ _ _ h := absurd h (by simp [new])
  guaranteed _ h := absurd h List.not_mem_nil
  chained := List.IsChain.nil
  begins _ h := by cases h
  ends := rfl

/-- A stop keeps the invariant. -/
theorem Kept.stopped (h : Kept contract compatible first pool) :
    Kept contract compatible first pool.stopped where
  waiting i hi := h.waiting i (by simpa [Pool.stopped] using hi)
  standing i label p hi := by
    obtain ⟨task, htask, hrest⟩ := Option.map_eq_some_iff.mp hi
    split at hrest
    · cases hrest
    · subst hrest
      exact h.standing i label p htask
  halted i label hi := by
    obtain ⟨⟨label', rest⟩, htask, hrest⟩ := Option.map_eq_some_iff.mp hi
    cases rest with
    | none =>
      obtain rfl : label' = label := congrArg Task.label hrest
      exact h.halted i label' htask
    | some p =>
      obtain ⟨s, hstands, -⟩ := h.standing i label' p htask
      -- A task that ran is halted where it stood.
      split at hrest
      · rename_i hrunning
        obtain rfl : label' = label := congrArg Task.label hrest
        exact ⟨p, s, hrunning, hstands⟩
      · cases hrest
  apart i j task task' hij hi hj hrunning hrunning' := by
    obtain ⟨before, hbefore, rfl⟩ := Option.map_eq_some_iff.mp hi
    split at hrunning
    · cases hrunning
    · exact absurd hrunning ‹_›
  guaranteed call hcall := by
    obtain ⟨task, htask, hguaranteed⟩ := h.guaranteed call hcall
    refine ⟨_, congrArg (Option.map _) htask, ?_⟩
    dsimp only
    split <;> exact hguaranteed
  chained := h.chained
  begins := h.begins
  ends := h.ends

/-- A call is in the past of its own task only. -/
theorem past_concat (pool : Pool ι σ ε α) (i j : ℕ) (state : σ)
    (tasks : ℕ → Option (Task ι σ ε α)) (before after : σ) :
    (⟨state, tasks, pool.trace ++ [⟨i, before, after⟩]⟩ : Pool ι σ ε α).past j =
      if j = i then pool.past j ++ [(before, after)] else pool.past j := by
  unfold past
  rw [List.filter_append, List.map_append]
  split_ifs with h
  · rw [List.filter_cons_of_pos (by simp [h])]
    rfl
  · rw [List.filter_cons_of_neg (by simpa using Ne.symm h)]
    exact List.append_nil _

/-- What a made call adds to the past. -/
theorem past_make (pool : Pool ι σ ε α) (i : ℕ) (label : ι) (p : Routine σ ε α) (fault : Fault)
    (j : ℕ) : (pool.make i label p fault).past j =
      if j = i then pool.past j ++ [(pool.state, (pool.make i label p fault).state)]
      else pool.past j := pool.past_concat i j _ _ _ _

/-- A routine that makes a call was running, and keeps its label. -/
theorem task_make {i j : ℕ} {label : ι} {p : Routine σ ε α} {fault : Fault} {task : Task ι σ ε α}
    (hi : pool.tasks i = some ⟨label, some p⟩) (hrunning : p.isRunning = true)
    (h : (pool.make i label p fault).tasks j = some task) :
    ∃ task', pool.tasks j = some task' ∧ task'.label = task.label ∧
      (task.isRunning = true → task'.isRunning = true) := by
  change Function.update pool.tasks i _ j = some task at h
  by_cases hne : j = i
  · subst hne
    rw [Function.update_self] at h
    cases h
    exact ⟨_, hi, rfl, fun _ => hrunning⟩
  · rw [Function.update_of_ne hne] at h
    exact ⟨task, h, rfl, id⟩

/-- A call is made where the last one has left the state. -/
theorem Kept.chained_concat (h : Kept contract compatible first pool) (i : ℕ) (after : σ) :
    (pool.trace ++ [(⟨i, pool.state, after⟩ : Call σ)]).IsChain
      fun call call' => call.after = call'.before := by
  rw [List.isChain_append]
  refine ⟨h.chained, List.isChain_singleton _, fun call hlast call' hcall' => ?_⟩
  obtain rfl : ⟨i, pool.state, after⟩ = call' := by simpa using hcall'
  have hstate := h.ends
  rw [Option.mem_def.mp hlast] at hstate
  exact hstate.symm

/-- The first call of a trace is made in the first state. -/
theorem Kept.begins_concat (h : Kept contract compatible first pool) {i : ℕ} {after : σ}
    {call : Call σ}
    (hcall : (pool.trace ++ [(⟨i, pool.state, after⟩ : Call σ)]).head? = some call) :
    call.before = first := by
  rcases htrace : pool.trace with _ | ⟨call', rest⟩
  · rw [htrace] at hcall
    obtain rfl : ⟨i, pool.state, after⟩ = call := by simpa using hcall
    have hstate := h.ends
    rw [htrace] at hstate
    exact hstate
  · rw [htrace] at hcall
    refine h.begins call ?_
    rw [htrace]
    exact hcall

/-- A call keeps the contract of its routine, and those of the others, as what it guarantees is what
they rely on. -/
theorem Kept.make (hcontracts : Contracts routine contract compatible)
    (h : Kept contract compatible first pool) {i : ℕ} {label : ι} {p : Routine σ ε α}
    (hi : pool.tasks i = some ⟨label, some p⟩) (hrunning : p.isRunning = true) (fault : Fault) :
    Kept contract compatible first (pool.make i label p fault) := by
  -- The others have taken the state from `s` to where the call is made.
  obtain ⟨s, hstands, hrely⟩ := h.standing i label p hi
  have hhere := Routine.stands_of_rely (hcontracts.trans i label) hrunning hstands (hrely hrunning)
  obtain ⟨heffect, hleft⟩ := hhere.advance (hcontracts.refl i label) hrunning fault
  generalize hnext : p.advance fault pool.state = next at heffect hleft
  obtain ⟨q, after⟩ := next
  dsimp only at heffect hleft
  have htasks : (pool.make i label p fault).tasks =
      Function.update pool.tasks i (some ⟨label, some q⟩) := by
    rw [Pool.make, hnext]
  have hstate : (pool.make i label p fault).state = after := by rw [Pool.make, hnext]
  have htrace : (pool.make i label p fault).trace = pool.trace ++ [⟨i, pool.state, after⟩] := by
    rw [Pool.make, hnext]
  have hpast : ∀ j, (pool.make i label p fault).past j =
      if j = i then pool.past j ++ [(pool.state, after)] else pool.past j := by
    intro j
    rw [past_make, hstate]
  constructor
  case waiting =>
    intro j hj
    rw [htasks] at hj
    have hne : j ≠ i := by
      rintro rfl
      rw [Function.update_self] at hj
      cases hj
    rw [Function.update_of_ne hne] at hj
    obtain ⟨hpre, hnothing⟩ := h.waiting j hj
    rw [hstate, htrace]
    refine ⟨fun label' => ?_, fun call hcall => ?_⟩
    · rcases heffect with hsame | hguarantee
      · rw [hsame]
        exact hpre label'
      · exact hcontracts.waits i j label label' _ _ (Ne.symm hne) hguarantee (hpre label')
    · rcases List.mem_append.mp hcall with hold | hnew
      · exact hnothing call hold
      · obtain rfl := List.mem_singleton.mp hnew
        exact Ne.symm hne
  case standing =>
    intro j label' p' hj
    rw [htasks] at hj
    by_cases hne : j = i
    · subst hne
      rw [Function.update_self] at hj
      cases hj
      refine ⟨after, ?_, fun _ => ?_⟩
      · rw [hpast, if_pos rfl]
        exact hleft
      · rw [hstate]
        exact hcontracts.refl _ _ _
    · rw [Function.update_of_ne hne] at hj
      obtain ⟨s', hstands', hrely'⟩ := h.standing j label' p' hj
      refine ⟨s', ?_, fun hrunning' => ?_⟩
      · rw [hpast, if_neg hne]
        exact hstands'
      · rw [hstate]
        rcases heffect with hsame | hguarantee
        · rw [hsame]
          exact hrely' hrunning'
        · have hcompatible := h.apart i j _ _ (Ne.symm hne) hi hj hrunning hrunning'
          exact hcontracts.trans j label' _ _ _ (hrely' hrunning')
            (hcontracts.meets i j label label' _ _ (Ne.symm hne) hcompatible hguarantee)
  case halted =>
    intro j label' hj
    rw [htasks] at hj
    have hne : j ≠ i := by
      rintro rfl
      rw [Function.update_self] at hj
      cases hj
    rw [Function.update_of_ne hne] at hj
    obtain ⟨p', s', hrunning', hstands'⟩ := h.halted j label' hj
    refine ⟨p', s', hrunning', ?_⟩
    rw [hpast, if_neg hne]
    exact hstands'
  case apart =>
    intro j k task task' hjk hj hk hrunning₁ hrunning₂
    obtain ⟨task₁, hj', hlabel₁, hbefore₁⟩ := task_make hi hrunning hj
    obtain ⟨task₂, hk', hlabel₂, hbefore₂⟩ := task_make hi hrunning hk
    rw [← hlabel₁, ← hlabel₂]
    exact h.apart j k task₁ task₂ hjk hj' hk' (hbefore₁ hrunning₁) (hbefore₂ hrunning₂)
  case guaranteed =>
    intro call hcall
    rw [htrace] at hcall
    rcases List.mem_append.mp hcall with hold | hnew
    · obtain ⟨task, htask, hguaranteed⟩ := h.guaranteed call hold
      rw [htasks]
      by_cases hne : call.task = i
      · rw [hne, hi] at htask
        cases htask
        exact ⟨⟨label, some q⟩, by rw [hne, Function.update_self], hguaranteed⟩
      · exact ⟨task, by rw [Function.update_of_ne hne]; exact htask, hguaranteed⟩
    · obtain rfl := List.mem_singleton.mp hnew
      exact ⟨⟨label, some q⟩, by rw [htasks]; exact Function.update_self .., heffect⟩
  case chained =>
    rw [htrace]
    exact h.chained_concat i after
  case begins =>
    intro call hcall
    rw [htrace] at hcall
    exact h.begins_concat hcall
  case ends =>
    rw [hstate, htrace, List.getLast?_concat]
    rfl

/-- A routine that is started where its contract allows it stands. -/
theorem Kept.start (hcontracts : Contracts routine contract compatible)
    (h : Kept contract compatible first pool) (i : ℕ) (label : ι)
    (hapart : ∀ j task, pool.tasks j = some task → task.isRunning = true →
      compatible label task.label ∧ compatible task.label label) :
    Kept contract compatible first (pool.start routine i label) := by
  unfold Pool.start
  split
  · exact h
  rename_i hi
  -- A thread that waits has made no call yet.
  obtain ⟨hpre, hnothing⟩ := h.waiting i hi
  have hpast : pool.past i = [] := by
    unfold past
    rw [List.map_eq_nil_iff, List.filter_eq_nil_iff]
    intro call hcall
    simpa using hnothing call hcall
  constructor
  case waiting =>
    intro j hj
    dsimp only at hj
    have hne : j ≠ i := by
      rintro rfl
      rw [Function.update_self] at hj
      cases hj
    rw [Function.update_of_ne hne] at hj
    exact h.waiting j hj
  case standing =>
    intro j label' p hj
    -- What it does from here on is its contract from the start.
    dsimp only at hj
    by_cases hne : j = i
    · subst hne
      rw [Function.update_self] at hj
      cases hj
      refine ⟨pool.state, ?_, fun _ => hcontracts.refl _ _ _⟩
      have hstarts := hcontracts.starts j label pool.state (hpre label)
      rw [← hpast] at hstarts
      exact hstarts
    · rw [Function.update_of_ne hne] at hj
      exact h.standing j label' p hj
  case halted =>
    intro j label' hj
    dsimp only at hj
    have hne : j ≠ i := by
      rintro rfl
      rw [Function.update_self] at hj
      cases hj
    rw [Function.update_of_ne hne] at hj
    exact h.halted j label' hj
  -- It is compatible with whatever runs.
  case apart =>
    intro j k task task' hjk hj hk hrunning hrunning'
    dsimp only at hj hk
    by_cases hji : j = i
    · subst hji
      rw [Function.update_self] at hj
      rw [Function.update_of_ne (Ne.symm hjk)] at hk
      cases hj
      exact (hapart k task' hk hrunning').1
    · rw [Function.update_of_ne hji] at hj
      by_cases hki : k = i
      · subst hki
        rw [Function.update_self] at hk
        cases hk
        exact (hapart j task hj hrunning).2
      · rw [Function.update_of_ne hki] at hk
        exact h.apart j k task task' hjk hj hk hrunning hrunning'
  -- The calls that were made are of other threads.
  case guaranteed =>
    intro call hcall
    obtain ⟨task, htask, hguaranteed⟩ := h.guaranteed call hcall
    refine ⟨task, ?_, hguaranteed⟩
    dsimp only
    rw [Function.update_of_ne (hnothing call hcall)]
    exact htask
  case chained => exact h.chained
  case begins => exact h.begins
  case ends => exact h.ends

/-- A move keeps the invariant, if the started task is compatible with the others. -/
theorem Kept.apply (hcontracts : Contracts routine contract compatible)
    (h : Kept contract compatible first pool) {move : Move ι}
    (hmove : ∀ i label, move = .start i label → ∀ j task, pool.tasks j = some task →
      task.isRunning = true → compatible label task.label ∧ compatible task.label label) :
    Kept contract compatible first (pool.apply routine move) := by
  cases move with
  | stop => exact h.stopped
  | start i label => exact h.start hcontracts i label (hmove i label rfl)
  | call i fault =>
    show Kept contract compatible first (pool.call i fault)
    rcases pool.call_cases i fault with hsame | ⟨label, p, hi, hrunning, hmade | hmade⟩
    · rw [hsame]
      exact h
    · rw [hmade]
      exact h.make hcontracts hi hrunning fault
    · rw [hmade]
      exact (h.make hcontracts hi hrunning fault).stopped

/-- Every routine of every run keeps its contract, as long as only compatible ones run at the same
time. -/
theorem Kept.run (hcontracts : Contracts routine contract compatible)
    (h : Kept contract compatible first pool) {moves : List (Move ι)}
    (hapart : Apart routine compatible moves pool) :
    Kept contract compatible first (pool.run routine moves) := by
  induction moves generalizing pool with
  | nil => exact h
  | cons move moves ih => exact ih (h.apply hcontracts hapart.1) hapart.2

end Kept

end Pool

end Mio.Library
