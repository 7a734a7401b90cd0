import Mio.Library.Thread

/-!
# What a thread does to what is its own

A part of the shared state can be a thread's own: the others see it at most, and leave it
(`Thread.Own`). A triple is about that part alone, so that nothing needs to be known of the others
and of what they do to the rest of the state. What the thread reads of the rest is then any value.
Where the others may change the part, but only in some way (`Thread.Relies`), the assertions between
the steps must withstand it.

`Thread.Triple` has a precondition, and a postcondition for each end of the thread: it returns, it
leaves, or the process stops.
-/

namespace Mio.Library.Thread

variable {σ π ε α β : Type}

/-- The others leave what `view` shows of the state. -/
def Own (others : ℕ → σ → σ) (view : σ → π) : Prop :=
  ∀ moment state, view (others moment state) = view state

/-- From `pre` the thread ends with `post` where it returns, with `left` where it leaves, and with
`cut` where the process stops. -/
def Triple (others : ℕ → σ → σ) (view : σ → π) (pre : π → Prop) (p : Thread σ ε α)
    (post : α → π → Prop) (left : ε → π → Prop) (cut : π → Prop) : Prop :=
  ∀ now, pre (view now.state) →
    wp others p (fun a now => post a (view now.state)) (fun e now => left e (view now.state))
      (fun now => cut (view now.state)) now

variable {others : ℕ → σ → σ} {view : σ → π} {pre : π → Prop} {post : α → π → Prop}
  {left : ε → π → Prop} {cut : π → Prop}

/-- A program that only returns. -/
theorem triple_pure {a : α} (h : ∀ own, pre own → post a own) :
    Triple others view pre (pure a : Thread σ ε α) post left cut :=
  fun _ hpre => h _ hpre

/-- A program that leaves. -/
theorem triple_exit {e : ε} (h : ∀ own, pre own → left e own) :
    Triple others view pre (exit e : Thread σ ε α) post left cut :=
  fun _ hpre => h _ hpre

/-- Two programs, one after the other. -/
theorem triple_bind {p : Thread σ ε α} {next : α → Thread σ ε β} {last : β → π → Prop}
    (hp : Triple others view pre p post left cut)
    (hnext : ∀ a, Triple others view (post a) (next a) last left cut) :
    Triple others view pre (p >>= next) last left cut := by
  intro now hpre
  rw [wp_bind]
  exact wp_mono (hp now hpre) (fun a now hpost => hnext a now hpost) (fun _ _ h => h) fun _ h => h

/-- More may be asked before, and less promised after. -/
theorem Triple.mono {pre' : π → Prop} {post' : α → π → Prop}
    {left' : ε → π → Prop} {cut' : π → Prop}
    {p : Thread σ ε α} (h : Triple others view pre p post left cut)
    (hpre : ∀ own, pre' own → pre own)
    (hpost : ∀ a own, post a own → post' a own) (hleft : ∀ e own, left e own → left' e own)
    (hcut : ∀ own, cut own → cut' own) : Triple others view pre' p post' left' cut' :=
  fun now hpre' => wp_mono (h now (hpre _ hpre')) (fun a _ => hpost a _) (fun e _ => hleft e _)
    fun _ => hcut _

/-- The same with another precondition alone. -/
theorem Triple.weaken {pre' : π → Prop} {p : Thread σ ε α}
    (h : Triple others view pre p post left cut) (hpre : ∀ own, pre' own → pre own) :
    Triple others view pre' p post left cut :=
  h.mono hpre (fun _ _ h => h) (fun _ _ h => h) fun _ h => h

/-- Of a precondition that exists, any one will do. -/
theorem triple_exists {ι : Sort*} {pre : ι → π → Prop} {p : Thread σ ε α}
    (h : ∀ i, Triple others view (pre i) p post left cut) :
    Triple others view (fun own => ∃ i, pre i own) p post left cut :=
  fun now hpre => hpre.elim fun i hi => h i now hi

/-- What a precondition says besides the state can be assumed. -/
theorem triple_and {c : Prop} {p : Thread σ ε α}
    (h : c → Triple others view pre p post left cut) :
    Triple others view (fun own => c ∧ pre own) p post left cut :=
  fun now hpre => h hpre.1 now hpre.2

/-- A choice between two programs. -/
theorem triple_ite {c : Prop} [Decidable c] {p q : Thread σ ε α}
    (hp : c → Triple others view pre p post left cut)
    (hq : ¬c → Triple others view pre q post left cut) :
    Triple others view pre (if c then p else q) post left cut := by
  split
  · exact hp ‹_›
  · exact hq ‹_›

/-- What holds for each index of a thread that returns. -/
theorem wp_all {ι : Sort*} {p : Thread σ ε α} {done : ι → α → Instant σ → Prop} {now : Instant σ}
    (h : ∀ i, wp others p (done i) (fun _ _ => True) (fun _ => True) now) :
    wp others p (fun a now => ∀ i, done i a now) (fun _ _ => True) (fun _ => True) now := by
  unfold wp at h ⊢
  rcases hrun : p others now with ⟨a | e | _, after⟩
  · intro i
    have hi := h i
    rw [hrun] at hi
    exact hi
  · trivial
  · trivial

/-! ## What the others may do -/

/-- The others change what `view` shows of the state at most as `rely` says. -/
def Relies (others : ℕ → σ → σ) (view : σ → π) (rely : π → π → Prop) : Prop :=
  ∀ moment state, rely (view state) (view (others moment state))

/-- The others do not break the assertion. -/
def Withstands (rely : π → π → Prop) (holds : π → Prop) : Prop :=
  ∀ own own', rely own own' → holds own → holds own'

/-- The assertion has held, and since then the others have done what they may do. -/
def Once (rely : π → π → Prop) (holds : π → Prop) (own : π) : Prop :=
  ∃ earlier, holds earlier ∧ rely earlier own

section Once

variable {rely : π → π → Prop} {holds holds' : π → Prop} {own : π}

/-- What holds now has held once. -/
theorem Once.now [Std.Refl rely] (h : holds own) : Once rely holds own :=
  ⟨own, h, refl_of rely own⟩

/-- What has held once with a property has held with a weaker one. -/
theorem Once.mono (h : Once rely holds own) (himp : ∀ own, holds own → holds' own) :
    Once rely holds' own :=
  h.imp fun _ hearlier => ⟨himp _ hearlier.1, hearlier.2⟩

/-- What has held once withstands the others. -/
theorem Once.withstands [IsTrans π rely] : Withstands rely (Once rely holds) := by
  rintro own own' hrely ⟨earlier, hearlier, hown⟩
  exact ⟨earlier, hearlier, IsTrans.trans _ _ _ hown hrely⟩

end Once

section Relies

variable {rely : π → π → Prop} (hrely : Relies others view rely)

include hrely

/-- A step, after which the others do what is relied on. -/
theorem Relies.triple_step (hpost : ∀ a, Withstands rely (post a))
    (hleft : ∀ e, Withstands rely (left e))
    (hcut : Withstands rely cut) {act : ℕ → σ → Outcome ε α × σ}
    (h : ∀ moment state, pre (view state) →
      match act moment state with
      | (.done a, state) => post a (view state)
      | (.error e, state) => left e (view state)
      | (.cut, state) => cut (view state)) :
    Triple others view pre (step act) post left cut := by
  intro now hpre
  rw [wp_step]
  have hact := h now.moment now.state hpre
  rcases hrun : act now.moment now.state with ⟨a | e | _, state⟩
  all_goals rw [hrun] at hact
  · exact hpost a _ _ (hrely _ state) hact
  · exact hleft e _ _ (hrely _ state) hact
  · exact hcut _ _ (hrely _ state) hact

/-- A reading leaves the state, and gives what it shows. -/
theorem Relies.triple_reads (hpost : ∀ a, Withstands rely (post a)) {f : ℕ → σ → α}
    (h : ∀ moment state, pre (view state) → post (f moment state) (view state)) :
    Triple others view pre (reads f) post left cut :=
  fun now hpre => hpost _ _ _ (hrely _ _) (h now.moment now.state hpre)

/-- What is done at the end leaves the view. -/
theorem Relies.triple_finallyDo (hpost : ∀ a, Withstands rely (post a))
    (hleft : ∀ e, Withstands rely (left e)) {last : σ → σ}
    (hlast : ∀ state, view (last state) = view state)
    {p : Thread σ ε α} (h : Triple others view pre p post left cut) :
    Triple others view pre (p.finallyDo last) post left cut := by
  intro now hpre
  rw [wp_finallyDo]
  refine wp_mono (h now hpre) (fun a after hdone => ?_) (fun e after hexit => ?_) fun _ h => h
  · have hview := hrely after.moment (last after.state)
    rw [hlast] at hview
    exact hpost a _ _ hview hdone
  · have hview := hrely after.moment (last after.state)
    rw [hlast] at hview
    exact hleft e _ _ hview hexit

end Relies

/-! ## What is the thread's own -/

/-- What is a thread's own the others leave as it is. -/
theorem Own.relies (hown : Own others view) : Relies others view Eq :=
  fun moment state => (hown moment state).symm

/-- Everything withstands others that change nothing. -/
theorem withstands_eq (holds : π → Prop) : Withstands Eq holds :=
  fun _ _ heq h => heq ▸ h

section Own

variable (hown : Own others view)

include hown

/-- A step of a view that the others leave. -/
theorem triple_step {act : ℕ → σ → Outcome ε α × σ}
    (h : ∀ moment state, pre (view state) →
      match act moment state with
      | (.done a, state) => post a (view state)
      | (.error e, state) => left e (view state)
      | (.cut, state) => cut (view state)) :
    Triple others view pre (step act) post left cut :=
  hown.relies.triple_step (fun _ => withstands_eq _) (fun _ => withstands_eq _) (withstands_eq _) h

/-- A reading gives some value, and leaves what is the thread's own. -/
theorem triple_reads {f : ℕ → σ → α} (h : ∀ a own, pre own → post a own) :
    Triple others view pre (reads f) post left cut :=
  hown.relies.triple_reads (fun _ => withstands_eq _) fun _ _ => h _ _

/-- So does a step that touches the rest of the state alone. -/
theorem triple_rest {act : ℕ → σ → Outcome ε α × σ}
    (hact : ∀ moment state, view (act moment state).2 = view state)
    (hpost : ∀ a own, pre own → post a own) (hleft : ∀ e own, pre own → left e own)
    (hcut : ∀ own, pre own → cut own) : Triple others view pre (step act) post left cut := by
  refine triple_step hown fun moment state hpre => ?_
  have hview := hact moment state
  rcases hrun : act moment state with ⟨a | e | _, after⟩
  all_goals
    rw [hrun] at hview
    dsimp only at hview ⊢
    rw [hview]
  · exact hpost a _ hpre
  · exact hleft e _ hpre
  · exact hcut _ hpre

/-- What is done at the end leaves a view that the others leave. -/
theorem triple_finallyDo {last : σ → σ} (hlast : ∀ state, view (last state) = view state)
    {p : Thread σ ε α} (h : Triple others view pre p post left cut) :
    Triple others view pre (p.finallyDo last) post left cut :=
  hown.relies.triple_finallyDo (fun _ => withstands_eq _) (fun _ => withstands_eq _) hlast h

end Own

end Mio.Library.Thread
