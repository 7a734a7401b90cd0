import Mio.Library.ThreadTriples

/-!
# What a thread has seen

An instant has the steps that the thread has taken, each with the state that it was taken in. A step
that was taken stays one, so what was read or done at it can be said at the end of the run
(`Thread.Seen`), and it is something about this run alone.

`Thread.Traced` is a triple whose postconditions may speak of the steps. What comes next starts with
the steps that were taken so far.
-/

namespace Mio.Library.Thread

variable {σ π ε ε' α β : Type}

/-- It was so at one of the steps. -/
def Seen (past : List (ℕ × σ)) (holds : ℕ → σ → Prop) : Prop :=
  ∃ moment state, (moment, state) ∈ past ∧ holds moment state

section Seen

variable {past past' : List (ℕ × σ)} {holds holds' : ℕ → σ → Prop}

/-- It is so at the step that is taken now. -/
theorem Seen.now {moment : ℕ} {state : σ} (h : holds moment state) : Seen
    ((moment, state) :: past) holds :=
  ⟨moment, state, List.mem_cons_self, h⟩

/-- What was seen stays so. -/
theorem Seen.mono (h : Seen past holds) (hsub : past ⊆ past') : Seen past' holds := by
  obtain ⟨moment, state, hmem, hholds⟩ := h
  exact ⟨moment, state, hsub hmem, hholds⟩

/-- What was seen with a property was seen with a weaker one. -/
theorem Seen.imp (h : Seen past holds)
    (himp : ∀ moment state, holds moment state → holds' moment state) :
    Seen past holds' := by
  obtain ⟨moment, state, hmem, hholds⟩ := h
  exact ⟨moment, state, hmem, himp moment state hholds⟩

end Seen

/-- From `pre`, and after the steps `known`, the thread ends with `post` where it returns, with
`left` where it leaves, and with `cut` where the process stops. -/
def Traced (others : ℕ → σ → σ) (view : σ → π) (known : List (ℕ × σ))
    (pre : π → Prop) (p : Thread σ ε α)
    (post : α → List (ℕ × σ) → π → Prop) (left : ε → List (ℕ × σ) → π → Prop)
    (cut : π → Prop) : Prop :=
  ∀ now : Instant σ, known ⊆ now.past → pre (view now.state) →
    wp others p (fun a now => known ⊆ now.past ∧ post a now.past (view now.state))
      (fun e now => known ⊆ now.past ∧ left e now.past (view now.state))
        (fun now => cut (view now.state)) now

variable {others : ℕ → σ → σ} {view : σ → π} {known : List (ℕ × σ)} {pre : π → Prop}
  {post : α → List (ℕ × σ) → π → Prop} {left : ε → List (ℕ × σ) → π → Prop} {cut : π → Prop}

/-- A value is returned without a step. -/
theorem traced_pure {a : α} (h : ∀ past own, known ⊆ past → pre own → post a past own) :
    Traced others view known pre (pure a : Thread σ ε α) post left cut :=
  fun now hknown hpre => ⟨hknown, h now.past _ hknown hpre⟩

/-- A program that leaves. -/
theorem traced_exit {e : ε} (h : ∀ past own, known ⊆ past → pre own → left e past own) :
    Traced others view known pre (exit e : Thread σ ε α) post left cut :=
  fun now hknown hpre => ⟨hknown, h now.past _ hknown hpre⟩

/-- What comes next knows the steps of the first program. -/
theorem traced_bind {p : Thread σ ε α} {next : α → Thread σ ε β}
    {last : β → List (ℕ × σ) → π → Prop}
    (hp : Traced others view known pre p post left cut)
    (hnext : ∀ a past, known ⊆ past →
      Traced others view past (post a past) (next a) last left cut) :
    Traced others view known pre (p >>= next) last left cut := by
  intro now hknown hpre
  rw [wp_bind]
  refine wp_mono (hp now hknown hpre) (fun a later hpost => ?_) (fun _ _ h => h) fun _ h => h
  refine wp_mono (hnext a later.past hpost.1 later (List.Subset.refl _) hpost.2)
    (fun b last h => ?_)
    (fun e last h => ?_) fun _ h => h
  · exact ⟨List.Subset.trans hpost.1 h.1, h.2⟩
  · exact ⟨List.Subset.trans hpost.1 h.1, h.2⟩

/-- More may be asked before, and less promised after. -/
theorem Traced.mono {pre' : π → Prop} {post' : α → List (ℕ × σ) → π → Prop}
    {left' : ε → List (ℕ × σ) → π → Prop} {cut' : π → Prop} {p : Thread σ ε α}
    (h : Traced others view known pre p post left cut) (hpre : ∀ own, pre' own → pre own)
    (hpost : ∀ a past own, known ⊆ past → post a past own → post' a past own)
    (hleft : ∀ e past own, known ⊆ past → left e past own → left' e past own)
    (hcut : ∀ own, cut own → cut' own) : Traced others view known pre' p post' left' cut' :=
  fun now hknown hpre' =>
    wp_mono (h now hknown (hpre _ hpre')) (fun a _ h => ⟨h.1, hpost a _ _ h.1 h.2⟩)
    (fun e _ h => ⟨h.1, hleft e _ _ h.1 h.2⟩) fun _ => hcut _

/-- The same with another precondition alone. -/
theorem Traced.weaken {pre' : π → Prop} {p : Thread σ ε α}
    (h : Traced others view known pre p post left cut) (hpre : ∀ own, pre' own → pre own) :
    Traced others view known pre' p post left cut :=
  h.mono hpre (fun _ _ _ _ h => h) (fun _ _ _ _ h => h) fun _ h => h

/-- What a precondition says besides the state can be assumed. -/
theorem traced_and {c : Prop} {p : Thread σ ε α}
    (h : c → Traced others view known pre p post left cut) :
    Traced others view known (fun own => c ∧ pre own) p post left cut :=
  fun now hknown hpre => h hpre.1 now hknown hpre.2

/-- A choice between two programs. -/
theorem traced_ite {c : Prop} [Decidable c] {p q : Thread σ ε α}
    (hp : c → Traced others view known pre p post left cut)
    (hq : ¬c → Traced others view known pre q post left cut) :
    Traced others view known pre (if c then p else q) post left cut := by
  split
  · exact hp ‹_›
  · exact hq ‹_›

/-- What the program leaves with is a value for what comes next. -/
theorem traced_attempt {p : Thread σ ε α} (h : Traced others view known pre p post left cut)
    (leaves : ε' → List (ℕ × σ) → π → Prop) :
    Traced others view known pre (p.attempt : Thread σ ε' (Except ε α))
      (fun result past own => match result with
        | .ok a => post a past own
        | .error e => left e past own) leaves cut := by
  intro now hknown hpre
  rw [wp_attempt]
  exact wp_mono (h now hknown hpre) (fun _ _ h => h) (fun _ _ h => h) fun _ h => h

/-- What is so of the values that the program gives, whatever the others do, is so besides. -/
theorem Traced.gives {answer : α → Prop} {leaves : ε → Prop} {p : Thread σ ε α}
    (h : Traced others view known pre p post left cut) (hgives : p.Gives answer leaves) :
    Traced others view known pre p (fun a past own => answer a ∧ post a past own) left cut := by
  intro now hknown hpre
  refine wp_mono (wp_and (h now hknown hpre) (hgives.wp now))
    (fun a later h => ?_) (fun e later h => ?_)
    fun later h => ?_
  · exact ⟨h.1.1, h.2, h.1.2⟩
  · exact h.1
  · exact h.1

section Relies

variable {rely : π → π → Prop} (hrely : Relies others view rely)

include hrely

/-- A step, after which the others do what is relied on. -/
theorem Relies.traced_step (hpost : ∀ a past, Withstands rely (post a past))
    (hleft : ∀ e past, Withstands rely (left e past)) (hcut : Withstands rely cut)
    {act : ℕ → σ → Outcome ε α × σ}
    (h : ∀ moment state past, known ⊆ past → pre (view state) →
      match act moment state with
      | (.done a, after) => post a ((moment, state) :: past) (view after)
      | (.error e, after) => left e ((moment, state) :: past) (view after)
      | (.cut, after) => cut (view after)) :
    Traced others view known pre (step act) post left cut := by
  intro now hknown hpre
  rw [wp_step]
  have hact := h now.moment now.state now.past hknown hpre
  have hsub : known ⊆ (now.moment, now.state) :: now.past :=
    List.Subset.trans hknown (List.subset_cons_self _ _)
  rcases hrun : act now.moment now.state with ⟨a | e | _, state⟩
  all_goals rw [hrun] at hact
  · exact ⟨hsub, hpost a _ _ _ (hrely _ state) hact⟩
  · exact ⟨hsub, hleft e _ _ _ (hrely _ state) hact⟩
  · exact hcut _ _ (hrely _ state) hact

/-- A reading leaves the state, and what it gives was so at its step. -/
theorem Relies.traced_reads (hpre : Withstands rely pre) (f : ℕ → σ → α) :
    Traced others view known pre (reads f)
      (fun a past own => Seen past (fun moment state => f moment state = a) ∧
        pre own) left cut := by
  intro now hknown hnow
  refine ⟨List.Subset.trans hknown (List.subset_cons_self _ _),
    ⟨now.moment, now.state, ?_, rfl⟩, ?_⟩
  · exact List.mem_cons_self
  · exact hpre _ _ (hrely now.moment now.state) hnow

/-- What is done at the end, as one more step of the past. -/
theorem Relies.traced_finallyDo
    (hpost : ∀ a past step own own', rely own own' → post a past own → post a (step :: past) own')
    (hleft : ∀ e past step own own', rely own own' → left e past own → left e (step :: past) own')
    {last : σ → σ} (hlast : ∀ state, view (last state) = view state)
    {p : Thread σ ε α} (h : Traced others view known pre p post left cut) :
    Traced others view known pre (p.finallyDo last) post left cut := by
  intro now hknown hpre
  rw [wp_finallyDo]
  have hsub : ∀ after : Instant σ, known ⊆ after.past →
      known ⊆ (after.moment, after.state) :: after.past :=
    fun after h => List.Subset.trans h (List.subset_cons_self _ _)
  refine wp_mono (h now hknown hpre) (fun a after hdone => ?_) (fun e after hexit => ?_) fun _ h =>
    h
  · have hview := hrely after.moment (last after.state)
    rw [hlast] at hview
    exact ⟨hsub after hdone.1, hpost a _ _ _ _ hview hdone.2⟩
  · have hview := hrely after.moment (last after.state)
    rw [hlast] at hview
    exact ⟨hsub after hexit.1, hleft e _ _ _ _ hview hexit.2⟩

end Relies

end Mio.Library.Thread
