import Mio.Library.Faults

/-!
# A thread among others

A program of one thread over a state that it shares with other threads. After each of its steps the
other threads do something to the state, whatever it is, so that a result about the thread holds for
every interleaving. A thread can exit early, and the process can stop at one of its steps.

`Thread.Gives` is about how the thread ends, whatever the others do. `Thread.wp` is the weakest
precondition under what the others do, and `Thread.Keeps` a property of the state that the thread
and the others do not break.
-/

namespace Mio.Library

/-- Where a thread is: how many steps it has taken, and the state as it is now. -/
structure Instant (σ : Type) where
  moment : ℕ
  state : σ
  /-- The steps that were taken, each with the state that it was taken in, the last one first. -/
  past : List (ℕ × σ) := []

/-- The instant after a step that leaves the state. What the others do to it is an argument. -/
def Instant.after {σ : Type} (others : ℕ → σ → σ) (now : Instant σ) (state : σ) : Instant σ where
  moment := now.moment + 1
  state := others now.moment state
  past := (now.moment, now.state) :: now.past

/-- A program of a thread. What the others do to the state after a step is an argument. -/
def Thread (σ ε α : Type) : Type :=
  (ℕ → σ → σ) → Instant σ → Outcome ε α × Instant σ

namespace Thread

variable {σ ε α β : Type}

/-- Return a value. -/
def ret (a : α) : Thread σ ε α := fun _ now => (.done a, now)

/-- Leave the program. -/
def exit (e : ε) : Thread σ ε α := fun _ now => (.error e, now)

/-- Go on with the value that the first program returns. -/
def andThen (p : Thread σ ε α) (next : α → Thread σ ε β) : Thread σ ε β := fun others now =>
  match p others now with
  | (.done a, now) => next a others now
  | (.error e, now) => (.error e, now)
  | (.cut, now) => (.cut, now)

instance : Monad (Thread σ ε) where
  pure := ret
  bind := andThen

instance : LawfulMonad (Thread σ ε) :=
  LawfulMonad.mk' (Thread σ ε)
    (fun p => by
      funext others now
      show andThen p (fun a => ret a) others now = p others now
      unfold andThen
      rcases p others now with ⟨a | e | _, now⟩ <;> rfl)
    (fun _ _ => rfl)
    (fun p next last => by
      funext others now
      show andThen (andThen p next) last others now =
        andThen p (fun a => andThen (next a) last) others now
      unfold andThen
      rcases p others now with ⟨a | e | _, now⟩ <;> rfl)

/-- Of a program that returns, what comes next runs from there. -/
theorem bind_done {p : Thread σ ε α} {next : α → Thread σ ε β} {others : ℕ → σ → σ}
    {now after : Instant σ} {a : α} (h : p others now = (.done a, after)) :
    (p >>= next) others now = next a others after := by
  show andThen p next others now = _
  unfold andThen
  rw [h]

/-- Act on the state, and let the others act on it after that. -/
def step (act : ℕ → σ → Outcome ε α × σ) : Thread σ ε α := fun others now =>
  let (outcome, state) := act now.moment now.state
  (outcome, now.after others state)

/-- Read the state. -/
def reads (f : ℕ → σ → α) : Thread σ ε α := step fun moment state => (.done (f moment state), state)

/-- Change the state. -/
def changes (f : ℕ → σ → σ) : Thread σ ε Unit := step fun moment state => (.done (), f moment state)

/-- Run the program, and change the state once it has returned or left. -/
def finallyDo (last : σ → σ) (p : Thread σ ε α) : Thread σ ε α := fun others now =>
  match p others now with
  | (.cut, now) => (.cut, now)
  | (outcome, now) => (outcome, now.after others (last now.state))

/-- Run the program, and return what it leaves with as a value. -/
def attempt {ε' : Type} (p : Thread σ ε α) : Thread σ ε' (Except ε α) := fun others now =>
  match p others now with
  | (.done a, now) => (.done (.ok a), now)
  | (.error e, now) => (.done (.error e), now)
  | (.cut, now) => (.cut, now)

/-- Run the program, and leave with a function of what it leaves with. -/
def mapError {ε' : Type} (f : ε → ε') (p : Thread σ ε α) : Thread σ ε' α := fun others now =>
  match p others now with
  | (.done a, now) => (.done a, now)
  | (.error e, now) => (.error (f e), now)
  | (.cut, now) => (.cut, now)

/-- Leave with `e` where there is no value. -/
def ofOption (e : ε) : Option α → Thread σ ε α
  | some a => ret a
  | none => exit e

/-- A value that is there, and what follows it. -/
theorem ofOption_some_bind (e : ε) (a : α) (next : α → Thread σ ε β) :
    ofOption e (some a) >>= next = next a := rfl

/-- A value that is missing, and what does not follow it. -/
theorem ofOption_none_bind (e : ε) (next : α → Thread σ ε β) :
    ofOption e none >>= next = exit e := rfl

/-- A pure result as a program. -/
def ofExcept : Except ε α → Thread σ ε α
  | .ok a => ret a
  | .error e => exit e

/-- Leave with `e` unless the condition holds. -/
def require (e : ε) (c : Bool) : Thread σ ε Unit := if c then ret () else exit e

/-! ## How a thread ends -/

/-- What holds of the value that the thread returns, or of what it leaves with. -/
def Gives (answer : α → Prop) (left : ε → Prop) (p : Thread σ ε α) : Prop :=
  ∀ others now,
    match (p others now).1 with
    | .done a => answer a
    | .error e => left e
    | .cut => True

variable {answer : α → Prop} {left : ε → Prop}

/-- A program that only returns. -/
theorem gives_pure {a : α} (h : answer a) : (pure a : Thread σ ε α).Gives answer left :=
  fun _ _ => h

/-- A program that leaves. -/
theorem gives_exit {e : ε} (h : left e) : (exit e : Thread σ ε α).Gives answer left :=
  fun _ _ => h

/-- Two programs, one after the other. -/
theorem gives_bind {p : Thread σ ε α} {next : α → Thread σ ε β} {result : β → Prop}
    (hp : p.Gives answer left) (hnext : ∀ a, answer a → (next a).Gives result left) :
    (p >>= next).Gives result left := by
  intro others now
  have hfirst := hp others now
  show match (andThen p next others now).1 with
    | .done a => result a
    | .error e => left e
    | .cut => True
  unfold andThen
  rcases hrun : p others now with ⟨a | e | _, now'⟩
  · rw [hrun] at hfirst
    exact hnext a hfirst others now'
  · rw [hrun] at hfirst
    exact hfirst
  · trivial

/-- A step gives what it gives at every moment. -/
theorem gives_step {act : ℕ → σ → Outcome ε α × σ}
    (h : ∀ moment state, match (act moment state).1 with
      | .done a => answer a
      | .error e => left e
      | .cut => True) : (step act).Gives answer left :=
  fun _ now => h now.moment now.state

/-- A read gives what holds at every moment. -/
theorem gives_reads {f : ℕ → σ → α} (h : ∀ moment state, answer (f moment state)) :
    (reads f : Thread σ ε α).Gives answer left :=
  fun _ now => h now.moment now.state

/-- A program whose value does not matter to the rest. -/
theorem gives_then {p : Thread σ ε α} {next : α → Thread σ ε β} {result : β → Prop}
    (hp : p.Gives (fun _ => True) left) (hnext : ∀ a, (next a).Gives result left) :
    (p >>= next).Gives result left :=
  gives_bind hp fun a _ => hnext a

/-- What follows a read gives the same for every value. -/
theorem gives_reads_then {f : ℕ → σ → α} {next : α → Thread σ ε β} {result : β → Prop}
    (hnext : ∀ a, (next a).Gives result left) : (reads f >>= next).Gives result left :=
  gives_then (gives_reads fun _ _ => trivial) hnext

/-- A change gives nothing. -/
theorem gives_changes {f : ℕ → σ → σ} :
    (changes f : Thread σ ε Unit).Gives (fun _ => True) left :=
  fun _ _ => trivial

/-- What is done at the end changes no answer. -/
theorem gives_finallyDo {last : σ → σ} {p : Thread σ ε α} (h : p.Gives answer left) :
    (p.finallyDo last).Gives answer left := by
  intro others now
  have hp := h others now
  unfold finallyDo
  rcases hrun : p others now with ⟨a | e | _, now'⟩
  · rw [hrun] at hp
    exact hp
  · rw [hrun] at hp
    exact hp
  · trivial

/-- A choice between two programs. -/
theorem gives_ite {c : Prop} [Decidable c] {p q : Thread σ ε α} (hp : c → p.Gives answer left)
    (hq : ¬c → q.Gives answer left) : (if c then p else q).Gives answer left := by
  split
  · exact hp ‹_›
  · exact hq ‹_›

/-- A program that is only run under a condition, before the rest. -/
theorem gives_when {c : Prop} [Decidable c] {p : Thread σ ε α} {rest : Thread σ ε β}
    {result : β → Prop} (hp : p.Gives (fun _ => True) left) (hrest : rest.Gives result left) :
    (if c then p >>= fun _ => rest else rest).Gives result left :=
  gives_ite (fun _ => gives_then hp fun _ => hrest) fun _ => hrest

/-- What holds of every answer. -/
theorem gives_always {p : Thread σ ε α} (hanswer : ∀ a, answer a) (hleft : ∀ e, left e) :
    p.Gives answer left := by
  intro others now
  rcases (p others now).1 with a | e | _
  · exact hanswer a
  · exact hleft e
  · trivial

/-- Nothing is asked of how a program ends. -/
theorem gives_anyway (p : Thread σ ε α) : p.Gives (fun _ => True) fun _ => True :=
  gives_always (fun _ => trivial) fun _ => trivial

/-- What holds of what the program returns or leaves with holds of the value that is made of it. -/
theorem gives_attempt {ε' : Type} {p : Thread σ ε α} {leaves : ε' → Prop}
    (h : p.Gives answer left) :
    (p.attempt : Thread σ ε' (Except ε α)).Gives
      (fun result => match result with
        | .ok a => answer a
        | .error e => left e) leaves := by
  intro others now
  have hp := h others now
  unfold attempt
  rcases hrun : p others now with ⟨a | e | _, now'⟩
  · rw [hrun] at hp
    exact hp
  · rw [hrun] at hp
    exact hp
  · trivial

/-- A requirement holds after it. -/
theorem gives_require {e : ε} {c : Bool} :
    (require e c : Thread σ ε Unit).Gives (fun _ => c = true) fun _ => True := by
  intro others now
  cases c <;> trivial

/-- The value was there. -/
theorem gives_ofOption {e : ε} {value : Option α} :
    (ofOption e value : Thread σ ε α).Gives (fun a => value = some a) fun _ => True := by
  intro others now
  cases value
  · trivial
  · rfl

/-! ## What a thread leaves -/

section Weakest

variable {others : ℕ → σ → σ} {done : α → Instant σ → Prop} {left : ε → Instant σ → Prop}
  {cut : Instant σ → Prop}

/-- The weakest precondition, with a postcondition for a thread that returns, one for a thread that
leaves, and one for a process that stops. -/
def wp (others : ℕ → σ → σ) (p : Thread σ ε α) (done : α → Instant σ → Prop)
    (left : ε → Instant σ → Prop) (cut : Instant σ → Prop) (now : Instant σ) : Prop :=
  match p others now with
  | (.done a, now) => done a now
  | (.error e, now) => left e now
  | (.cut, now) => cut now

/-- A program that only returns. -/
theorem wp_pure (a : α) (now : Instant σ) :
    wp others (pure a : Thread σ ε α) done left cut now ↔ done a now := Iff.rfl

/-- Two programs, one after the other. -/
theorem wp_bind (p : Thread σ ε α) (next : α → Thread σ ε β) {done : β → Instant σ → Prop}
    (now : Instant σ) :
    wp others (p >>= next) done left cut now ↔
      wp others p (fun a => wp others (next a) done left cut) left cut now := by
  show wp others (andThen p next) done left cut now ↔ _
  unfold wp andThen
  rcases p others now with ⟨a | e | _, now'⟩ <;> rfl

/-- A step, after which the others go on. -/
theorem wp_step (act : ℕ → σ → Outcome ε α × σ) (now : Instant σ) :
    wp others (step act) done left cut now ↔
      match act now.moment now.state with
      | (.done a, state) => done a (now.after others state)
      | (.error e, state) => left e (now.after others state)
      | (.cut, state) => cut (now.after others state) := by
  unfold wp step
  rcases act now.moment now.state with ⟨a | e | _, state⟩ <;> rfl

/-- A read, after which the others go on. -/
theorem wp_reads (f : ℕ → σ → α) (now : Instant σ) :
    wp others (reads f : Thread σ ε α) done left cut now ↔
      done (f now.moment now.state) (now.after others now.state) := Iff.rfl

/-- A change, after which the others go on. -/
theorem wp_changes (f : ℕ → σ → σ) {done : Unit → Instant σ → Prop} (now : Instant σ) :
    wp others (changes f : Thread σ ε Unit) done left cut now ↔
      done () (now.after others (f now.moment now.state)) := Iff.rfl

/-- An attempt has the error as its answer. -/
theorem wp_attempt {ε' : Type} (p : Thread σ ε α) {done : Except ε α → Instant σ → Prop}
    {left : ε' → Instant σ → Prop} (now : Instant σ) :
    wp others (p.attempt : Thread σ ε' (Except ε α)) done left cut now ↔
      wp others p (fun a => done (.ok a)) (fun e => done (.error e)) cut now := by
  unfold wp attempt
  rcases p others now with ⟨a | e | _, now'⟩ <;> rfl

/-- Another error is left with. -/
theorem wp_mapError {ε' : Type} (f : ε → ε') (p : Thread σ ε α)
    {left : ε' → Instant σ → Prop} (now : Instant σ) :
    wp others (p.mapError f) done left cut now ↔
      wp others p done (fun e => left (f e)) cut now := by
  unfold wp mapError
  rcases p others now with ⟨a | e | _, now'⟩ <;> rfl

/-- What is done at the end, however the program ends. -/
theorem wp_finallyDo (last : σ → σ) (p : Thread σ ε α) (now : Instant σ) :
    wp others (p.finallyDo last) done left cut now ↔
      wp others p (fun a now => done a (now.after others (last now.state)))
        (fun e now => left e (now.after others (last now.state))) cut now := by
  unfold wp finallyDo
  rcases p others now with ⟨a | e | _, now'⟩ <;> rfl

/-- A requirement. -/
theorem wp_require (e : ε) (c : Bool) {done : Unit → Instant σ → Prop} (now : Instant σ) :
    wp others (require e c) done left cut now ↔ if c then done () now else left e now := by
  cases c <;> rfl

/-- A value that may be missing. -/
theorem wp_ofOption (e : ε) (value : Option α) (now : Instant σ) :
    wp others (ofOption e value) done left cut now ↔
      match value with
      | some a => done a now
      | none => left e now := by
  cases value <;> rfl

/-- A result that may be an error. -/
theorem wp_ofExcept (value : Except ε α) (now : Instant σ) :
    wp others (ofExcept value) done left cut now ↔
      match value with
      | .ok a => done a now
      | .error e => left e now := by
  cases value <;> rfl

/-- Less may be promised. -/
theorem wp_mono {p : Thread σ ε α} {done' : α → Instant σ → Prop} {left' : ε → Instant σ → Prop}
    {cut' : Instant σ → Prop} {now : Instant σ} (h : wp others p done left cut now)
    (hdone : ∀ a now, done a now → done' a now) (hleft : ∀ e now, left e now → left' e now)
    (hcut : ∀ now, cut now → cut' now) : wp others p done' left' cut' now := by
  unfold wp at h ⊢
  rcases hrun : p others now with ⟨a | e | _, now'⟩
  · rw [hrun] at h
    exact hdone a now' h
  · rw [hrun] at h
    exact hleft e now' h
  · rw [hrun] at h
    exact hcut now' h

/-- Two promises hold together. -/
theorem wp_and {p : Thread σ ε α} {done' : α → Instant σ → Prop} {left' : ε → Instant σ → Prop}
    {cut' : Instant σ → Prop} {now : Instant σ} (h : wp others p done left cut now)
    (h' : wp others p done' left' cut' now) :
    wp others p (fun a now => done a now ∧ done' a now) (fun e now => left e now ∧ left' e now)
      (fun now => cut now ∧ cut' now) now := by
  unfold wp at h h' ⊢
  rcases hrun : p others now with ⟨a | e | _, now'⟩
  · rw [hrun] at h h'
    exact ⟨h, h'⟩
  · rw [hrun] at h h'
    exact ⟨h, h'⟩
  · rw [hrun] at h h'
    exact ⟨h, h'⟩

/-- How a thread ends holds under whatever the others do. -/
theorem Gives.wp {answer : α → Prop} {leaves : ε → Prop} {p : Thread σ ε α}
    (h : p.Gives answer leaves) (now : Instant σ) :
    wp others p (fun a _ => answer a) (fun e _ => leaves e) (fun _ => True) now := by
  have hp := h others now
  unfold Thread.wp
  rcases hrun : p others now with ⟨a | e | _, now'⟩
  · rw [hrun] at hp
    exact hp
  · rw [hrun] at hp
    exact hp
  · trivial

/-- A program that returns does so in a state that it leaves. -/
theorem wp_run {p : Thread σ ε α} {now : Instant σ} (h : wp others p done left cut now) :
    wp others p (fun a after => p others now = (.done a, after) ∧ done a after) left cut now := by
  unfold wp at h ⊢
  rcases hrun : p others now with ⟨a | e | _, now'⟩
  · rw [hrun] at h
    exact ⟨rfl, h⟩
  · rw [hrun] at h
    exact h
  · rw [hrun] at h
    exact h

/-! ## What a thread does not break -/

/-- The other threads do not break the property. -/
def Stable (others : ℕ → σ → σ) (holds : σ → Prop) : Prop :=
  ∀ moment state, holds state → holds (others moment state)

/-- The property holds after the program if it holds before, however the program ends, and the
process does not stop in it. -/
def Keeps (others : ℕ → σ → σ) (holds : σ → Prop) (p : Thread σ ε α) : Prop :=
  ∀ now : Instant σ, holds now.state →
    wp others p (fun _ now => holds now.state) (fun _ now => holds now.state) (fun _ => False) now

variable {holds : σ → Prop}

/-- A program that only returns keeps everything. -/
theorem keeps_pure (a : α) : Keeps others holds (pure a : Thread σ ε α) := fun _ h => h

/-- A program that leaves keeps everything. -/
theorem keeps_exit (e : ε) : Keeps others holds (exit e : Thread σ ε α) := fun _ h => h

/-- What comes next knows what the program gives. -/
theorem keeps_bind_of {answer : α → Prop} {leaves : ε → Prop} {p : Thread σ ε α}
    {next : α → Thread σ ε β} (hp : Keeps others holds p) (hgives : p.Gives answer leaves)
    (hnext : ∀ a, answer a → Keeps others holds (next a)) : Keeps others holds (p >>= next) := by
  intro now h
  rw [wp_bind]
  exact wp_mono (wp_and (hp now h) (hgives.wp now)) (fun a now h => hnext a h.2 now h.1)
    (fun _ _ h => h.1) fun _ h => h.1

/-- Two programs, one after the other. -/
theorem keeps_bind {p : Thread σ ε α} {next : α → Thread σ ε β} (hp : Keeps others holds p)
    (hnext : ∀ a, Keeps others holds (next a)) : Keeps others holds (p >>= next) := by
  intro now h
  rw [wp_bind]
  exact wp_mono (hp now h) (fun a now h => hnext a now h) (fun _ _ h => h) fun _ h => h

/-- A step that keeps the property and does not stop the process. -/
theorem keeps_step (hothers : Stable others holds) {act : ℕ → σ → Outcome ε α × σ}
    (h : ∀ moment state, holds state → holds (act moment state).2 ∧ (act moment state).1 ≠ .cut) :
    Keeps others holds (step act) := by
  intro now hnow
  have hact := h now.moment now.state hnow
  rw [wp_step]
  revert hact
  rcases act now.moment now.state with ⟨a | e | _, state⟩ <;> intro hact
  · exact hothers _ _ hact.1
  · exact hothers _ _ hact.1
  · exact hact.2 rfl

/-- A read keeps what the others keep. -/
theorem keeps_reads (hothers : Stable others holds) (f : ℕ → σ → α) :
    Keeps others holds (reads f : Thread σ ε α) :=
  keeps_step hothers fun _ _ h => ⟨h, nofun⟩

/-- A change that keeps the property. -/
theorem keeps_changes (hothers : Stable others holds) {f : ℕ → σ → σ}
    (h : ∀ moment state, holds state → holds (f moment state)) :
    Keeps others holds (changes f : Thread σ ε Unit) :=
  keeps_step hothers fun _ _ hstate => ⟨h _ _ hstate, nofun⟩

/-- An attempt keeps what the program keeps. -/
theorem keeps_attempt {ε' : Type} {p : Thread σ ε α} (h : Keeps others holds p) :
    Keeps others holds (p.attempt : Thread σ ε' (Except ε α)) := by
  intro now hnow
  rw [wp_attempt]
  exact h now hnow

/-- Another error changes nothing that is kept. -/
theorem keeps_mapError {ε' : Type} {f : ε → ε'} {p : Thread σ ε α}
    (h : Keeps others holds p) : Keeps others holds (p.mapError f) := by
  intro now hnow
  rw [wp_mapError]
  exact h now hnow

/-- A requirement keeps everything. -/
theorem keeps_require (e : ε) (c : Bool) : Keeps others holds (require e c) := by
  cases c
  · exact keeps_exit e
  · exact keeps_pure ()

/-- A value that may be missing keeps everything. -/
theorem keeps_ofOption (e : ε) (value : Option α) : Keeps others holds (ofOption e value) := by
  cases value
  · exact keeps_exit e
  · exact keeps_pure _

/-- A result that may be an error keeps everything. -/
theorem keeps_ofExcept (value : Except ε α) : Keeps others holds (ofExcept value) := by
  cases value
  · exact keeps_exit _
  · exact keeps_pure _

/-- A choice between two programs. -/
theorem keeps_ite {c : Prop} [Decidable c] {p q : Thread σ ε α} (hp : c → Keeps others holds p)
    (hq : ¬c → Keeps others holds q) : Keeps others holds (if c then p else q) := by
  split
  · exact hp ‹_›
  · exact hq ‹_›

/-- A program that is only run under a condition, before the rest. -/
theorem keeps_when {c : Prop} [Decidable c] {p : Thread σ ε α} {rest : Thread σ ε β}
    (hp : Keeps others holds p) (hrest : Keeps others holds rest) :
    Keeps others holds (if c then p >>= fun _ => rest else rest) :=
  keeps_ite (fun _ => keeps_bind hp fun _ => hrest) fun _ => hrest

/-- What comes next starts where the property holds, and it knows what the program gives. -/
theorem Keeps.wp_bind {answer : α → Prop} {leaves : ε → Prop} {p : Thread σ ε α}
    {next : α → Thread σ ε β} {done : β → Instant σ → Prop} (hp : Keeps others holds p)
    (hgives : p.Gives answer leaves) {now : Instant σ} (hnow : holds now.state)
    (hnext : ∀ a, answer a → ∀ now : Instant σ, holds now.state →
      wp others (next a) done left cut now)
    (hleft : ∀ e (now : Instant σ), holds now.state → left e now) :
    wp others (p >>= next) done left cut now := by
  rw [Thread.wp_bind]
  exact wp_mono (wp_and (hp now hnow) (hgives.wp now)) (fun a now h => hnext a h.2 now h.1)
    (fun e now h => hleft e now h.1) fun _ h => h.1.elim

/-- What holds of the state at the end of a run. -/
theorem Keeps.run {p : Thread σ ε α} (h : Keeps others holds p) {now : Instant σ}
    (hnow : holds now.state) : holds (p others now).2.state := by
  have hwp := h now hnow
  unfold wp at hwp
  rcases hrun : p others now with ⟨a | e | _, now'⟩
  · rw [hrun] at hwp
    exact hwp
  · rw [hrun] at hwp
    exact hwp
  · rw [hrun] at hwp
    exact hwp.elim

end Weakest

end Thread

end Mio.Library
