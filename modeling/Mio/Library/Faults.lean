import Mathlib.Order.Basic
import Mathlib.Tactic.Common

/-!
# Programs whose steps can fail or be cut off

A program that changes durable state does so in steps, and each step can fail, or the whole process
can stop at it. `Prog` is the tree of such a program: between its steps it reads and updates the
state freely, and at each `step` it learns whether the step was taken. `Prog.run` executes it under
a schedule, the list of what befalls its steps in order, so a statement about every schedule is one
about every pattern of failures and about every point where the program can be cut off.

`Prog.wp` is the weakest precondition with three postconditions: for a program that returns, for one
that returns an error, and for one that is cut off. It is computed from the tree, and `Prog.run_wp`
says that it holds of every schedule. The rules `wp_bind`, `wp_attempt`, and `wp_onError` are
equations, so that a program's precondition unfolds to one about its steps.
-/

namespace Mio.Library

/-- What befalls a program at one of its steps. A step that fails or is cut off has made `progress`
by then, which matters for the writes alone: every other step is taken as a whole or not at all. -/
inductive Fault where
  /-- The step is taken. -/
  | proceed
  /-- The step fails, and the program learns of it. -/
  | fail (progress : ℕ)
  /-- The process stops at the step. A stop after a program's last step is one after its return. -/
  | cut (progress : ℕ)
  deriving DecidableEq

/-- How a program ends. -/
inductive Outcome (ε α : Type) where
  /-- It returns a value. -/
  | done (value : α)
  /-- It returns an error. -/
  | error (e : ε)
  /-- The process stopped at one of its steps. -/
  | cut
  deriving DecidableEq

/-- The same end, with a function of the value. -/
def Outcome.map {ε α β : Type} (f : α → β) : Outcome ε α → Outcome ε β
  | .done value => .done (f value)
  | .error e => .error e
  | .cut => .cut

/-- A program over the state `σ`, with errors `ε` and values `α`. -/
inductive Prog (σ ε α : Type) where
  /-- Return a value. -/
  | ret (a : α)
  /-- Return an error. -/
  | throw (e : ε)
  /-- Go on as the state says. -/
  | read (k : σ → Prog σ ε α)
  /-- Change the state by something that cannot fail. -/
  | update (f : σ → σ) (k : Prog σ ε α)
  /-- Take the step `act`, where `none` is a step that the state refuses, and go on with whether it
  was taken. A step that fails or is cut off leaves `torn progress`. -/
  | step (act : σ → Option σ) (torn : ℕ → σ → σ) (k : Bool → Prog σ ε α)

namespace Prog

variable {σ ε α β : Type}

/-- Sequential composition. -/
protected def bind : Prog σ ε α → (α → Prog σ ε β) → Prog σ ε β
  | ret a, next => next a
  | throw e, _ => throw e
  | read k, next => read fun s => (k s).bind next
  | update f k, next => update f (k.bind next)
  | step act torn k, next => step act torn fun taken => (k taken).bind next

instance : Monad (Prog σ ε) where
  pure := ret
  bind := Prog.bind

/-- Run a program and return its error as a value. -/
def attempt : Prog σ ε α → Prog σ ε (Except ε α)
  | ret a => ret (.ok a)
  | throw e => ret (.error e)
  | read k => read fun s => (k s).attempt
  | update f k => update f k.attempt
  | step act torn k => step act torn fun taken => (k taken).attempt

/-- Run a program and, when it ends in an error, `cleanup` before the error is returned. An error of
`cleanup` itself is dropped. -/
def onError (cleanup : Prog σ ε Unit) : Prog σ ε α → Prog σ ε α
  | ret a => ret a
  | throw e => cleanup.attempt.bind fun _ => throw e
  | read k => read fun s => onError cleanup (k s)
  | update f k => update f (onError cleanup k)
  | step act torn k => step act torn fun taken => onError cleanup (k taken)

instance : LawfulMonad (Prog σ ε) := by
  refine LawfulMonad.mk' _ ?_ (fun _ _ => rfl) ?_
  · intro α p
    show p.bind (fun a => ret a) = p
    induction p with
    | ret a => rfl
    | throw e => rfl
    | read k ih => exact congrArg read (funext ih)
    | update f k ih => exact congrArg (update f) ih
    | step act torn k ih => exact congrArg (step act torn) (funext ih)
  · intro α β γ p f g
    show (p.bind f).bind g = p.bind fun a => (f a).bind g
    induction p with
    | ret a => rfl
    | throw e => rfl
    | read k ih => exact congrArg read (funext ih)
    | update h k ih => exact congrArg (update h) ih
    | step act torn k ih => exact congrArg (step act torn) (funext ih)

/-- What the state says. -/
def gets (f : σ → α) : Prog σ ε α := read fun s => ret (f s)

/-- A step that gives the error `e` when it is not taken. -/
def tryStep (e : ε) (act : σ → Option σ) (torn : ℕ → σ → σ) : Prog σ ε Unit :=
  step act torn fun taken => if taken then ret () else throw e

/-- Return the error `e` when the condition holds. -/
def refuse (e : ε) (c : Bool) : Prog σ ε Unit := if c then throw e else ret ()

/-- Run a program when the condition holds. -/
def when (c : Bool) (p : Prog σ ε Unit) : Prog σ ε Unit := if c then p else ret ()

/-- A value that may be missing, with the error for when it is. -/
def ofOption (e : ε) : Option α → Prog σ ε α
  | some a => ret a
  | none => throw e

/-- A pure result as a program. -/
def ofExcept : Except ε α → Prog σ ε α
  | .ok a => ret a
  | .error e => throw e

/-- Execute a program under a schedule. Steps beyond the end of the schedule proceed. -/
def run : Prog σ ε α → List Fault → σ → Outcome ε α × σ
  | ret a, _, s => (.done a, s)
  | throw e, _, s => (.error e, s)
  | read k, faults, s => (k s).run faults s
  | update f k, faults, s => k.run faults (f s)
  | step act torn k, faults, s =>
    match faults with
    | .fail n :: rest => (k false).run rest (torn n s)
    | .cut n :: _ => (.cut, torn n s)
    | _ =>
      match act s with
      | some s' => (k true).run faults.tail s'
      | none => (k false).run faults.tail s

/-- The weakest precondition for `done`, `error`, and `cut` to hold of a program's end under every
schedule. -/
def wp (done : α → σ → Prop) (error : ε → σ → Prop) (cut : σ → Prop) : Prog σ ε α → σ → Prop
  | ret a, s => done a s
  | throw e, s => error e s
  | read k, s => (k s).wp done error cut s
  | update f k, s => k.wp done error cut (f s)
  | step act torn k, s =>
    (∀ s', act s = some s' → (k true).wp done error cut s') ∧
      (act s = none → (k false).wp done error cut s) ∧
      ∀ n, (k false).wp done error cut (torn n s) ∧ cut (torn n s)

/-- The postconditions at a program's end. -/
def Ends (done : α → σ → Prop) (error : ε → σ → Prop) (cut : σ → Prop) :
    Outcome ε α × σ → Prop
  | (.done a, s) => done a s
  | (.error e, s) => error e s
  | (.cut, s) => cut s

variable {done : α → σ → Prop} {error : ε → σ → Prop} {cut : σ → Prop}

/-- The weakest precondition is sound for every schedule. -/
theorem run_wp (p : Prog σ ε α) (faults : List Fault) (s : σ) (h : p.wp done error cut s) :
    Ends done error cut (p.run faults s) := by
  induction p generalizing faults s with
  | ret a => exact h
  | throw e => exact h
  | read k ih => exact ih s faults s h
  | update f k ih => exact ih faults (f s) h
  | step act torn k ih =>
    obtain ⟨htaken, hrefused, htorn⟩ := h
    unfold run
    split
    · exact ih false _ _ (htorn _).1
    · exact (htorn _).2
    · split
      · exact ih true _ _ (htaken _ ‹_›)
      · exact ih false _ _ (hrefused ‹_›)

/-- A stronger postcondition has a stronger precondition. -/
theorem wp_mono {done' : α → σ → Prop} {error' : ε → σ → Prop} {cut' : σ → Prop}
    (hd : ∀ a s, done a s → done' a s) (he : ∀ e s, error e s → error' e s)
    (hc : ∀ s, cut s → cut' s) (p : Prog σ ε α) (s : σ) (h : p.wp done error cut s) :
    p.wp done' error' cut' s := by
  induction p generalizing s with
  | ret a => exact hd _ _ h
  | throw e => exact he _ _ h
  | read k ih => exact ih s s h
  | update f k ih => exact ih (f s) h
  | step act torn k ih =>
    obtain ⟨htaken, hrefused, htorn⟩ := h
    exact ⟨fun s' hs => ih true s' (htaken s' hs), fun hs => ih false s (hrefused hs),
      fun n => ⟨ih false _ (htorn n).1, hc _ (htorn n).2⟩⟩

/-! ## The rules of the constructs -/

/-- A program that only returns. -/
@[simp]
theorem wp_pure (a : α) (s : σ) : (pure a : Prog σ ε α).wp done error cut s ↔ done a s := Iff.rfl

/-- A program that throws. -/
@[simp]
theorem wp_throw (e : ε) (s : σ) :
    (throw e : Prog σ ε α).wp done error cut s ↔ error e s := Iff.rfl

/-- A look at the state. -/
@[simp]
theorem wp_gets (f : σ → α) (s : σ) :
    (gets f : Prog σ ε α).wp done error cut s ↔ done (f s) s := Iff.rfl

/-- A change that cannot fail. -/
@[simp]
theorem wp_update (f : σ → σ) (k : Prog σ ε α) (s : σ) :
    (update f k).wp done error cut s ↔ k.wp done error cut (f s) := Iff.rfl

/-- A choice between two programs. -/
@[simp]
theorem wp_ite (c : Prop) [Decidable c] (p q : Prog σ ε α) (s : σ) :
    (if c then p else q).wp done error cut s ↔
      (c → p.wp done error cut s) ∧ (¬c → q.wp done error cut s) := by
  split <;> simp_all

/-- A step is taken, refused by the state, or torn by a fault. -/
theorem wp_tryStep (e : ε) (act : σ → Option σ) (torn : ℕ → σ → σ)
    (done : Unit → σ → Prop) (s : σ) :
    (tryStep e act torn).wp done error cut s ↔
      (∀ s', act s = some s' → done () s') ∧ (act s = none → error e s) ∧
        ∀ n, error e (torn n s) ∧ cut (torn n s) := by
  simp [tryStep, wp]

/-- A sequence's precondition is the first program's, for the second's precondition. -/
@[simp]
theorem wp_bind (p : Prog σ ε α) (next : α → Prog σ ε β) (done : β → σ → Prop) (s : σ) :
    (p >>= next).wp done error cut s ↔
      p.wp (fun a s' => (next a).wp done error cut s') error cut s := by
  change (p.bind next).wp done error cut s ↔ _
  induction p generalizing s with
  | ret a => rfl
  | throw e => rfl
  | read k ih => exact ih s s
  | update f k ih => exact ih (f s)
  | step act torn k ih => simp only [Prog.bind, wp, ih]

/-- A mapped program's value is mapped. -/
@[simp]
theorem wp_map (f : α → β) (p : Prog σ ε α) (done : β → σ → Prop) (s : σ) :
    (f <$> p).wp done error cut s ↔ p.wp (fun a => done (f a)) error cut s := by
  rw [map_eq_pure_bind, wp_bind]
  rfl

/-- An attempted program's error is one of its values. -/
@[simp]
theorem wp_attempt (p : Prog σ ε α) (done : Except ε α → σ → Prop) (error : ε → σ → Prop) (s : σ) :
    p.attempt.wp done error cut s ↔
      p.wp (fun a => done (.ok a)) (fun e => done (.error e)) cut s := by
  induction p generalizing s with
  | ret a => rfl
  | throw e => rfl
  | read k ih => exact ih s s
  | update f k ih => exact ih (f s)
  | step act torn k ih => simp only [attempt, wp, ih]

/-- A guarded program's error passes through the cleanup. -/
@[simp]
theorem wp_onError (cleanup : Prog σ ε Unit) (p : Prog σ ε α) (s : σ) :
    (onError cleanup p).wp done error cut s ↔
      p.wp done (fun e s' => cleanup.wp (fun _ => error e) (fun _ => error e) cut s') cut s := by
  induction p generalizing s with
  | ret a => rfl
  | throw e =>
    change (cleanup.attempt >>= fun _ => throw e).wp done error cut s ↔ _
    rw [wp_bind, wp_attempt]
    rfl
  | read k ih => exact ih s s
  | update f k ih => exact ih (f s)
  | step act torn k ih => simp only [onError, wp, ih]

/-- A refusal throws exactly when its condition holds. -/
@[simp]
theorem wp_refuse (e : ε) (c : Bool) (done : Unit → σ → Prop) (s : σ) :
    (refuse e c).wp done error cut s ↔ (c = true → error e s) ∧ (c = false → done () s) := by
  cases c <;> simp [refuse, wp]

/-- A program that runs only when its condition holds. -/
@[simp]
theorem wp_when (c : Bool) (p : Prog σ ε Unit) (done : Unit → σ → Prop) (s : σ) :
    (when c p).wp done error cut s ↔
      (c = true → p.wp done error cut s) ∧ (c = false → done () s) := by
  cases c <;> simp [when, wp]

/-- A value that may be missing. -/
@[simp]
theorem wp_ofOption (e : ε) (o : Option α) (s : σ) :
    (ofOption e o : Prog σ ε α).wp done error cut s ↔
      (∀ a, o = some a → done a s) ∧ (o = none → error e s) := by
  cases o <;> simp [ofOption, wp]

/-- A result that may be an error. -/
@[simp]
theorem wp_ofExcept (r : Except ε α) (s : σ) :
    (ofExcept r : Prog σ ε α).wp done error cut s ↔
      (∀ a, r = .ok a → done a s) ∧ (∀ e, r = .error e → error e s) := by
  cases r <;> simp [ofExcept, wp]

/-! ## Schedules that spare a step

`wpSparing n` is the weakest precondition for the schedules under which the program is not stopped
at its step `n`, counted from `0`: either an earlier step has gone wrong, or this one does not. It
is computed from the tree, so a program is first written with its steps in front. -/

/-- The weakest precondition for every schedule that spares the step `n`. -/
def wpSparing (done : α → σ → Prop) (error : ε → σ → Prop) (cut : σ → Prop) :
    ℕ → Prog σ ε α → σ → Prop
  | _, ret a, s => done a s
  | _, throw e, s => error e s
  | n, read k, s => wpSparing done error cut n (k s) s
  | n, update f k, s => wpSparing done error cut n k (f s)
  | 0, step act _ k, s =>
    (∀ s', act s = some s' → (k true).wp done error cut s') ∧
      (act s = none → (k false).wp done error cut s)
  | n + 1, step act torn k, s =>
    (∀ s', act s = some s' → wpSparing done error cut n (k true) s') ∧
      (act s = none → (k false).wp done error cut s) ∧
      ∀ m, (k false).wp done error cut (torn m s) ∧ cut (torn m s)

/-- Whether the schedule spares the step `n`. -/
def Spares (n : ℕ) (faults : List Fault) : Prop :=
  (∀ fault ∈ faults.take n, fault = .proceed) → ∀ fault, faults[n]? = some fault → fault = .proceed

/-- The rest of a schedule spares one step less. -/
theorem Spares.tail {n : ℕ} {faults : List Fault} (h : Spares (n + 1) faults)
    (hhead : ∀ fault, faults.head? = some fault → fault = .proceed) : Spares n faults.tail := by
  cases faults with
  | nil => simp [Spares]
  | cons fault rest =>
    obtain rfl := hhead fault rfl
    simpa [Spares] using h

/-- A schedule that does not spare a step lets those before it proceed, and stops there. -/
theorem exists_of_not_spares {n : ℕ} {faults : List Fault} (h : ¬Spares n faults) :
    ∃ fault rest, fault ≠ .proceed ∧ faults = List.replicate n .proceed ++ fault :: rest := by
  unfold Spares at h
  push Not at h
  obtain ⟨hbefore, fault, hfault, hne⟩ := h
  obtain ⟨hlength, hget⟩ := List.getElem?_eq_some_iff.mp hfault
  have htake : faults.take n = List.replicate n .proceed := by
    rw [List.eq_replicate_iff, List.length_take]
    exact ⟨by omega, hbefore⟩
  refine ⟨fault, faults.drop (n + 1), hne, ?_⟩
  calc faults = faults.take n ++ faults.drop n := (List.take_append_drop n faults).symm
    _ = List.replicate n .proceed ++ fault :: faults.drop (n + 1) := by
      rw [htake, List.drop_eq_getElem_cons hlength, hget]

/-- The weakest precondition for the schedules that spare a step is sound for them. -/
theorem run_wpSparing (p : Prog σ ε α) (n : ℕ) (faults : List Fault) (s : σ)
    (h : p.wpSparing done error cut n s) (hspares : Spares n faults) :
    Ends done error cut (p.run faults s) := by
  induction p generalizing n faults s with
  | ret a =>
    rw [wpSparing] at h
    exact h
  | throw e =>
    rw [wpSparing] at h
    exact h
  | read k ih =>
    rw [wpSparing] at h
    exact ih s n faults s h hspares
  | update f k ih =>
    rw [wpSparing] at h
    exact ih n faults (f s) h hspares
  | step act torn k ih =>
    -- Where the first step goes wrong, the ordinary precondition covers the rest.
    cases n with
    | zero =>
      rw [wpSparing] at h
      obtain ⟨htaken, hrefused⟩ := h
      have hspared : ∀ fault, faults[0]? = some fault → fault = .proceed := hspares (by simp)
      unfold run
      split
      · exact absurd (hspared _ rfl) (by simp)
      · exact absurd (hspared _ rfl) (by simp)
      · split
        · exact run_wp _ _ _ (htaken _ ‹_›)
        · exact run_wp _ _ _ (hrefused ‹_›)
    | succ n =>
      rw [wpSparing] at h
      obtain ⟨htaken, hrefused, htorn⟩ := h
      unfold run
      split
      · exact run_wp _ _ _ (htorn _).1
      · exact (htorn _).2
      · rename_i hfail hcut
        have hhead : ∀ fault, faults.head? = some fault → fault = .proceed := by
          intro fault hfault
          obtain ⟨rest, rfl⟩ := List.head?_eq_some_iff.mp hfault
          cases fault with
          | proceed => rfl
          | fail m => exact absurd rfl (hfail m rest)
          | cut m => exact absurd rfl (hcut m rest)
        split
        · exact ih true n _ _ (htaken _ ‹_›) (hspares.tail hhead)
        · exact run_wp _ _ _ (hrefused ‹_›)

/-! A program with its first step in front. -/

/-- A look, and what follows it. -/
theorem gets_bind (f : σ → α) (next : α → Prog σ ε β) :
    gets f >>= next = read fun s => next (f s) := rfl

/-- A read, and what follows it. -/
theorem read_bind (k : σ → Prog σ ε α) (next : α → Prog σ ε β) :
    read k >>= next = read fun s => k s >>= next := rfl

/-- A step, and what follows it. -/
theorem step_bind (act : σ → Option σ) (torn : ℕ → σ → σ) (k : Bool → Prog σ ε α)
    (next : α → Prog σ ε β) :
    step act torn k >>= next = step act torn fun taken => k taken >>= next := rfl

/-- Nothing follows a throw. -/
theorem throw_bind (e : ε) (next : α → Prog σ ε β) :
    (throw e : Prog σ ε α) >>= next = throw e := rfl

/-- A step that throws when it fails, and what follows it. -/
theorem tryStep_bind (e : ε) (act : σ → Option σ) (torn : ℕ → σ → σ) (next : Unit → Prog σ ε β) :
    tryStep e act torn >>= next =
      step act torn fun taken => if taken then next () else throw e := by
  show step act torn _ = step act torn _
  congr 1
  funext taken
  cases taken <;> rfl

/-- An attempted step tells what follows whether it failed. -/
theorem attempt_tryStep_bind (e : ε) (act : σ → Option σ) (torn : ℕ → σ → σ)
    (next : Except ε Unit → Prog σ ε β) :
    (tryStep e act torn).attempt >>= next =
      step act torn fun taken => if taken then next (.ok ()) else next (.error e) := by
  show step act torn _ = step act torn _
  congr 1
  funext taken
  cases taken <;> rfl

/-- A refusal, and what follows it. -/
theorem refuse_bind (e : ε) (c : Bool) (next : Unit → Prog σ ε β) :
    refuse e c >>= next = if c then throw e else next () := by
  cases c <;> rfl

/-- A value that may be missing, and what follows it. -/
theorem ofOption_bind (e : ε) (o : Option α) (next : α → Prog σ ε β) :
    ofOption e o >>= next = o.elim (throw e) next := by
  cases o <;> rfl

/-- A choice, and what follows it. -/
theorem ite_bind (c : Prop) [Decidable c] (p q : Prog σ ε α) (next : α → Prog σ ε β) :
    (if c then p else q) >>= next = if c then p >>= next else q >>= next := by
  split <;> rfl

/-- A throw runs the cleanup. -/
theorem onError_throw (cleanup : Prog σ ε Unit) (e : ε) :
    onError cleanup (throw e : Prog σ ε α) = cleanup.attempt >>= fun _ => throw e := rfl

/-- The cleanup of a choice is that of either program. -/
theorem onError_ite (cleanup : Prog σ ε Unit) (c : Prop) [Decidable c] (p q : Prog σ ε α) :
    onError cleanup (if c then p else q) = if c then onError cleanup p else onError cleanup q := by
  split <;> rfl

/-- A choice between two programs, under a schedule that spares steps. -/
theorem wpSparing_ite (n : ℕ) (c : Prop) [Decidable c] (p q : Prog σ ε α) (s : σ) :
    (if c then p else q).wpSparing done error cut n s ↔
      (c → p.wpSparing done error cut n s) ∧ (¬c → q.wpSparing done error cut n s) := by
  split <;> simp_all

/-- The cleanup of a read is that of what follows. -/
theorem onError_read (cleanup : Prog σ ε Unit) (k : σ → Prog σ ε α) :
    onError cleanup (read k) = read fun s => onError cleanup (k s) := rfl

/-- The cleanup of a step is that of what follows. -/
theorem onError_step (cleanup : Prog σ ε Unit) (act : σ → Option σ) (torn : ℕ → σ → σ)
    (k : Bool → Prog σ ε α) :
    onError cleanup (step act torn k) = step act torn fun taken => onError cleanup (k taken) := rfl

/-- A step that fails runs the cleanup. -/
theorem onError_tryStep (cleanup : Prog σ ε Unit) (e : ε) (act : σ → Option σ) (torn : ℕ → σ → σ) :
    onError cleanup (tryStep e act torn) =
      step act torn fun taken =>
        if taken then pure () else cleanup.attempt >>= fun _ => throw e := by
  show step act torn _ = step act torn _
  congr 1
  funext taken
  cases taken <;> rfl

/-- What holds under every schedule holds under those that spare a step. -/
theorem wpSparing_of_wp (p : Prog σ ε α) (n : ℕ) (s : σ) (h : p.wp done error cut s) :
    p.wpSparing done error cut n s := by
  induction p generalizing n s with
  | ret a =>
    rw [wpSparing]
    exact h
  | throw e =>
    rw [wpSparing]
    exact h
  | read k ih =>
    rw [wpSparing]
    exact ih s n s h
  | update f k ih =>
    rw [wpSparing]
    exact ih n (f s) h
  | step act torn k ih =>
    obtain ⟨htaken, hrefused, htorn⟩ := h
    cases n with
    | zero =>
      rw [wpSparing]
      exact ⟨htaken, hrefused⟩
    | succ n =>
      rw [wpSparing]
      exact ⟨fun s' hs => ih true n s' (htaken s' hs), hrefused, htorn⟩

/-- A stronger postcondition has a stronger precondition, also where a step is spared. -/
theorem wpSparing_mono {done' : α → σ → Prop} {error' : ε → σ → Prop} {cut' : σ → Prop}
    (hd : ∀ a s, done a s → done' a s) (he : ∀ e s, error e s → error' e s)
    (hc : ∀ s, cut s → cut' s) (p : Prog σ ε α) (n : ℕ) (s : σ)
    (h : p.wpSparing done error cut n s) : p.wpSparing done' error' cut' n s := by
  induction p generalizing n s with
  | ret a =>
    rw [wpSparing] at h ⊢
    exact hd _ _ h
  | throw e =>
    rw [wpSparing] at h ⊢
    exact he _ _ h
  | read k ih =>
    rw [wpSparing] at h ⊢
    exact ih s n s h
  | update f k ih =>
    rw [wpSparing] at h ⊢
    exact ih n (f s) h
  | step act torn k ih =>
    have hmono : ∀ taken s', (k taken).wp done error cut s' → (k taken).wp done' error' cut' s' :=
      fun taken s' hs => wp_mono hd he hc (k taken) s' hs
    cases n with
    | zero =>
      rw [wpSparing] at h ⊢
      exact ⟨fun s' hs => hmono true s' (h.1 s' hs), fun hs => hmono false s (h.2 hs)⟩
    | succ n =>
      rw [wpSparing] at h ⊢
      exact ⟨fun s' hs => ih true n s' (h.1 s' hs), fun hs => hmono false s (h.2.1 hs),
        fun m => ⟨hmono false _ (h.2.2 m).1, hc _ (h.2.2 m).2⟩⟩

/-- A guarded program spares the steps of the program. -/
theorem wpSparing_onError (cleanup : Prog σ ε Unit) (p : Prog σ ε α) (n : ℕ) (s : σ)
    (h : p.wpSparing done (fun e s' => cleanup.wp (fun _ => error e) (fun _ => error e) cut s') cut
      n s) : (onError cleanup p).wpSparing done error cut n s := by
  -- By induction on the program. The cleanup is run where a step fails or the program throws.
  induction p generalizing n s with
  | ret a =>
    rw [wpSparing] at h
    rw [onError, wpSparing]
    exact h
  | throw e =>
    rw [wpSparing] at h
    have hwp : (onError cleanup (throw e : Prog σ ε α)).wp done error cut s := by
      rw [wp_onError]
      exact h
    exact wpSparing_of_wp _ n s hwp
  | read k ih =>
    rw [wpSparing] at h
    rw [onError, wpSparing]
    exact ih s n s h
  | update f k ih =>
    rw [wpSparing] at h
    rw [onError, wpSparing]
    exact ih n (f s) h
  | step act torn k ih =>
    cases n with
    | zero =>
      rw [wpSparing] at h
      rw [onError, wpSparing]
      exact ⟨fun s' hs => (wp_onError cleanup _ s').mpr (h.1 s' hs),
        fun hs => (wp_onError cleanup _ s).mpr (h.2 hs)⟩
    | succ n =>
      rw [wpSparing] at h
      rw [onError, wpSparing]
      refine ⟨fun s' hs => ih true n s' (h.1 s' hs),
        fun hs => (wp_onError cleanup _ s).mpr (h.2.1 hs), fun m => ?_⟩
      exact ⟨(wp_onError cleanup _ _).mpr (h.2.2 m).1, (h.2.2 m).2⟩

/-! ## Runs under any schedule -/

/-- A program that goes on without a step runs as far as the first one. -/
theorem run_bind_pure (p : Prog σ ε α) {next : α → Prog σ ε β} {f : α → β}
    (hnext : ∀ a, next a = pure (f a)) (faults : List Fault) (s : σ) :
    (p >>= next).run faults s =
      match p.run faults s with
      | (.done a, s') => (.done (f a), s')
      | (.error e, s') => (.error e, s')
      | (.cut, s') => (.cut, s') := by
  change (p.bind next).run faults s = _
  induction p generalizing faults s with
  | ret a => rw [Prog.bind, hnext]; rfl
  | throw e => rfl
  | read k ih => exact ih s faults s
  | update f k ih => exact ih faults (f s)
  | step act torn k ih =>
    simp only [Prog.bind, run]
    split
    · exact ih false _ _
    · rfl
    · cases act s with
      | some s' => exact ih true _ _
      | none => exact ih false _ _

/-- A mapped program returns the mapped value. -/
theorem run_map (f : α → β) (p : Prog σ ε α) (faults : List Fault) (s : σ) :
    (f <$> p).run faults s =
      match p.run faults s with
      | (.done a, s') => (.done (f a), s')
      | (.error e, s') => (.error e, s')
      | (.cut, s') => (.cut, s') := by
  rw [map_eq_pure_bind]
  exact run_bind_pure p (fun _ => rfl) faults s

/-- An attempted program returns its error as a value. -/
theorem run_attempt (p : Prog σ ε α) (faults : List Fault) (s : σ) :
    p.attempt.run faults s =
      match p.run faults s with
      | (.done a, s') => (.done (.ok a), s')
      | (.error e, s') => (.done (.error e), s')
      | (.cut, s') => (.cut, s') := by
  induction p generalizing faults s with
  | ret a => rfl
  | throw e => rfl
  | read k ih => exact ih s faults s
  | update f k ih => exact ih faults (f s)
  | step act torn k ih =>
    simp only [attempt, run]
    split
    · exact ih false _ _
    · rfl
    · cases act s with
      | some s' => exact ih true _ _
      | none => exact ih false _ _

/-! ## Runs without a fault -/

/-- A program that only returns, run. -/
@[simp]
theorem run_pure (a : α) (faults : List Fault) (s : σ) :
    (pure a : Prog σ ε α).run faults s = (.done a, s) := rfl

/-- A program that throws, run. -/
@[simp]
theorem run_throw (e : ε) (faults : List Fault) (s : σ) :
    (throw e : Prog σ ε α).run faults s = (.error e, s) := rfl

/-- A read, run. -/
@[simp]
theorem run_read (k : σ → Prog σ ε α) (faults : List Fault) (s : σ) :
    (read k).run faults s = (k s).run faults s := rfl

/-- A choice, run. -/
theorem run_ite (c : Prop) [Decidable c] (p q : Prog σ ε α) (faults : List Fault) (s : σ) :
    (if c then p else q).run faults s = if c then p.run faults s else q.run faults s := by
  split <;> rfl

/-- A step, run without faults. -/
theorem run_step_nil (act : σ → Option σ) (torn : ℕ → σ → σ) (k : Bool → Prog σ ε α) (s : σ) :
    (step act torn k).run [] s =
      match act s with
      | some s' => (k true).run [] s'
      | none => (k false).run [] s := rfl

/-- A sequence without a fault runs its programs one after the other. -/
theorem run_bind_nil (p : Prog σ ε α) (next : α → Prog σ ε β) (s : σ) :
    (p >>= next).run [] s =
      match p.run [] s with
      | (.done a, s') => (next a).run [] s'
      | (.error e, s') => (.error e, s')
      | (.cut, s') => (.cut, s') := by
  change (p.bind next).run [] s = _
  induction p generalizing s with
  | ret a => rfl
  | throw e => rfl
  | read k ih => exact ih s s
  | update f k ih => exact ih (f s)
  | step act torn k ih =>
    simp only [Prog.bind, run]
    cases act s with
    | some s' => exact ih true s'
    | none => exact ih false s

/-- The weakest precondition for the schedule without a fault. -/
def wpCalm (done : α → σ → Prop) (error : ε → σ → Prop) : Prog σ ε α → σ → Prop
  | ret a, s => done a s
  | throw e, s => error e s
  | read k, s => wpCalm done error (k s) s
  | update f k, s => wpCalm done error k (f s)
  | step act _ k, s =>
    match act s with
    | some s' => wpCalm done error (k true) s'
    | none => wpCalm done error (k false) s

section Calm

variable {done : α → σ → Prop} {error : ε → σ → Prop}

/-- It is sound. -/
theorem run_wpCalm (p : Prog σ ε α) (s : σ) (h : p.wpCalm done error s) :
    Ends done error (fun _ => False) (p.run [] s) := by
  induction p generalizing s with
  | ret a => exact h
  | throw e => exact h
  | read k ih => exact ih s s h
  | update f k ih => exact ih (f s) h
  | step act torn k ih =>
    rw [wpCalm] at h
    rw [run_step_nil]
    cases hact : act s with
    | some s' => rw [hact] at h; exact ih true s' h
    | none => rw [hact] at h; exact ih false s h

/-- A program that only returns, undisturbed. -/
@[simp]
theorem wpCalm_pure (a : α) (s : σ) :
    (pure a : Prog σ ε α).wpCalm done error s ↔ done a s := Iff.rfl

/-- A program that throws, undisturbed. -/
@[simp]
theorem wpCalm_throw (e : ε) (s : σ) :
    (throw e : Prog σ ε α).wpCalm done error s ↔ error e s := Iff.rfl

/-- A look at the state, undisturbed. -/
@[simp]
theorem wpCalm_gets (f : σ → α) (s : σ) :
    (gets f : Prog σ ε α).wpCalm done error s ↔ done (f s) s := Iff.rfl

/-- A choice between two programs, undisturbed. -/
theorem wpCalm_ite (c : Prop) [Decidable c] (p q : Prog σ ε α) (s : σ) :
    (if c then p else q).wpCalm done error s ↔
      if c then p.wpCalm done error s else q.wpCalm done error s := by
  split <;> rfl

/-- Two programs, one after the other, undisturbed. -/
@[simp]
theorem wpCalm_bind (p : Prog σ ε α) (next : α → Prog σ ε β) {done : β → σ → Prop} (s : σ) :
    (p >>= next).wpCalm done error s ↔
      p.wpCalm (fun a s' => (next a).wpCalm done error s') error s := by
  change (p.bind next).wpCalm done error s ↔ _
  induction p generalizing s with
  | ret a => rfl
  | throw e => rfl
  | read k ih => exact ih s s
  | update f k ih => exact ih (f s)
  | step act torn k ih =>
    simp only [Prog.bind, wpCalm]
    cases act s with
    | some s' => exact ih true s'
    | none => exact ih false s

/-- An attempt, undisturbed. -/
@[simp]
theorem wpCalm_attempt (p : Prog σ ε α) {done : Except ε α → σ → Prop} (s : σ) :
    p.attempt.wpCalm done error s ↔
      p.wpCalm (fun a => done (.ok a)) (fun e => done (.error e)) s := by
  induction p generalizing s with
  | ret a => rfl
  | throw e => rfl
  | read k ih => exact ih s s
  | update f k ih => exact ih (f s)
  | step act torn k ih =>
    simp only [attempt, wpCalm]
    cases act s with
    | some s' => exact ih true s'
    | none => exact ih false s

/-- A guarded program that gives no error does so as if it were not guarded. -/
theorem wpCalm_onError {cleanup : Prog σ ε Unit} {p : Prog σ ε α} {s : σ}
    (h : p.wpCalm done (fun _ _ => False) s) : (onError cleanup p).wpCalm done error s := by
  induction p generalizing s with
  | ret a => exact h
  | throw e => exact h.elim
  | read k ih => exact ih s h
  | update f k ih => exact ih h
  | step act torn k ih =>
    simp only [onError, wpCalm] at h ⊢
    cases hact : act s with
    | some s' => rw [hact] at h; exact ih true h
    | none => rw [hact] at h; exact ih false h

/-- A step fails only when it cannot be taken, undisturbed. -/
@[simp]
theorem wpCalm_tryStep (e : ε) (act : σ → Option σ) (torn : ℕ → σ → σ) {done : Unit → σ → Prop}
    (s : σ) : (tryStep e act torn).wpCalm done error s ↔
      (act s).elim (error e s) (done ()) := by
  simp only [tryStep, wpCalm]
  cases act s <;> rfl

/-- A refusal throws exactly when its condition holds, undisturbed. -/
@[simp]
theorem wpCalm_refuse (e : ε) (c : Bool) {done : Unit → σ → Prop} (s : σ) :
    (refuse e c : Prog σ ε Unit).wpCalm done error s ↔ if c then error e s else done () s := by
  cases c <;> rfl

/-- A value that is there, undisturbed. -/
theorem wpCalm_ofOption {e : ε} {o : Option α} {a : α} (h : o = some a) (s : σ) :
    (ofOption e o : Prog σ ε α).wpCalm done error s ↔ done a s := by
  rw [h]
  rfl

end Calm

end Prog

end Mio.Library
