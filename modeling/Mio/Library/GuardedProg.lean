import Mio.Library.Faults
import Mio.Library.Guards

/-!
# Programs that guard resources

A program whose state is the list of its calls, some of which use resources. `Guarding.Spec` says of
such a program what it does to the resources, by their statuses before and after, under every
pattern of failures. There is a rule for each construct. `spec_stage` is the rule for a stage that
acquires a resource, goes on, and drops the resource where what follows fails.
-/

namespace Mio.Library

/-- What the calls of a program do to resources, and which resources go first. -/
structure Guarding (γ ρ : Type) where
  use : γ → Option (Use ρ)
  /-- The place in the order in which the resources are dropped. -/
  place : ρ → ℕ
  earlier : ρ → ρ → Prop
  injective : Function.Injective place
  lt_of_earlier : ∀ r other, earlier r other → place r < place other

variable {γ ρ ε α β : Type} [DecidableEq ρ]

/-- The statuses after a call. -/
def after (statuses : ρ → Status) : Option (Use ρ) → ρ → Status
  | none => statuses
  | some (.acquire r) => Function.update statuses r .held
  | some (.release r succeeded) =>
    Function.update statuses r (if succeeded then .released else .kept)

/-- The call is allowed. -/
def Allowed (earlier : ρ → ρ → Prop) (statuses : ρ → Status) : Option (Use ρ) → Prop
  | none => True
  | some (.acquire r) => statuses r = .idle
  | some (.release r _) => (statuses r = .held ∨ statuses r = .kept) ∧
    ∀ other, earlier other r → statuses other ≠ .held

/-- A value that holds a resource says whether it has to release it. -/
def Tracks (statuses : ρ → Status) (r : ρ) (active : Bool) : Prop :=
  if active then statuses r = .held ∨ statuses r = .kept
  else statuses r = .idle ∨ statuses r = .released

omit [DecidableEq ρ] in
/-- Only the status of the resource matters. -/
theorem Tracks.of_eq {statuses statuses' : ρ → Status} {r : ρ} {active : Bool}
    (h : Tracks statuses r active) (heq : statuses' r = statuses r) :
    Tracks statuses' r active := by
  unfold Tracks at h ⊢
  rwa [heq]

/-- The resource is not held, and the others are as before. -/
def Settles (r : ρ) (statuses statuses' : ρ → Status) : Prop :=
  statuses' r ≠ .held ∧ ∀ other, other ≠ r → statuses' other = statuses other

namespace Guarding

variable (G : Guarding γ ρ)

/-- The calls are orderly, and they leave the resources so. -/
def At (statuses : ρ → Status) (calls : List γ) : Prop :=
  Stands G.earlier statuses (calls.filterMap G.use)

/-- From the statuses, the program ends in a value or in an error with statuses as they are said. -/
def Spec (p : Prog (List γ) ε α) (statuses : ρ → Status) (done : α → (ρ → Status) → Prop)
    (error : (ρ → Status) → Prop) : Prop :=
  ∀ calls, G.At statuses calls →
    p.wp (fun a calls' => ∃ statuses', G.At statuses' calls' ∧ done a statuses')
      (fun _ calls' => ∃ statuses', G.At statuses' calls' ∧ error statuses') (fun _ => True) calls

/-- The program does nothing to the resources. -/
def Quiet (p : Prog (List γ) ε α) : Prop := ∀ statuses, G.Spec p statuses (fun _ => (· = statuses))
  (· = statuses)

/-- What a stage leaves that fails: what it acquired is not held, and the rest is as before. -/
def Left (statuses : ρ → Status) (place : ℕ) (statuses' : ρ → Status) : Prop :=
  (∀ r, G.place r ≤ place → statuses' r ≠ .held) ∧
    ∀ r, place < G.place r → statuses' r = statuses r

variable {G} {statuses : ρ → Status} {calls : List γ} {done : α → (ρ → Status) → Prop}
  {error : (ρ → Status) → Prop}

/-- An allowed call keeps the statuses those of the calls. -/
theorem At.after (h : G.At statuses calls) {c : γ} (hc : Allowed G.earlier statuses (G.use c)) :
    G.At (after statuses (G.use c)) (c :: calls) := by
  unfold At at h ⊢
  rcases huse : G.use c with _ | (r | ⟨r, succeeded⟩)
  · rw [List.filterMap_cons_none huse]
    exact h
  · rw [List.filterMap_cons_some huse]
    rw [huse] at hc
    exact h.acquire hc
  · rw [List.filterMap_cons_some huse]
    rw [huse] at hc
    exact h.release hc.1 hc.2 succeeded

/-! ## The rules of the constructs -/

/-- A program that only returns. -/
theorem spec_pure {a : α} (h : done a statuses) :
    G.Spec (pure a : Prog (List γ) ε α) statuses done error :=
  fun _ hcalls => ⟨statuses, hcalls, h⟩

/-- A program that throws. -/
theorem spec_throw {e : ε} (h : error statuses) :
    G.Spec (Prog.throw e : Prog (List γ) ε α) statuses done error :=
  fun _ hcalls => ⟨statuses, hcalls, h⟩

/-- Less may be promised. -/
theorem Spec.mono {p : Prog (List γ) ε α} (h : G.Spec p statuses done error)
    {done' : α → (ρ → Status) → Prop} {error' : (ρ → Status) → Prop}
    (hdone : ∀ a statuses', done a statuses' → done' a statuses')
    (herror : ∀ statuses', error statuses' → error' statuses') :
    G.Spec p statuses done' error' := by
  intro calls hcalls
  refine Prog.wp_mono ?_ ?_ (fun _ h => h) p calls (h calls hcalls)
  · rintro a calls' ⟨statuses', hat, h⟩
    exact ⟨statuses', hat, hdone a statuses' h⟩
  · rintro e calls' ⟨statuses', hat, h⟩
    exact ⟨statuses', hat, herror statuses' h⟩

/-- Two programs, one after the other. -/
theorem spec_bind {p : Prog (List γ) ε α} {next : α → Prog (List γ) ε β}
    {done : β → (ρ → Status) → Prop}
    (h : G.Spec p statuses (fun a statuses' => G.Spec (next a) statuses' done error) error) :
    G.Spec (p >>= next) statuses done error := by
  intro calls hcalls
  rw [Prog.wp_bind]
  refine Prog.wp_mono ?_ (fun _ _ h => h) (fun _ h => h) p calls (h calls hcalls)
  rintro a calls' ⟨statuses', hat, hnext⟩
  exact hnext calls' hat

/-- An attempt has the error as its answer. -/
theorem spec_attempt {p : Prog (List γ) ε α} {done : Except ε α → (ρ → Status) → Prop}
    (h : G.Spec p statuses (fun a => done (.ok a)) fun statuses' => ∀ e,
      done (.error e) statuses') :
    G.Spec p.attempt statuses done error := by
  intro calls hcalls
  rw [Prog.wp_attempt]
  refine Prog.wp_mono (fun _ _ h => h) ?_ (fun _ h => h) p calls (h calls hcalls)
  rintro e calls' ⟨statuses', hat, hdone⟩
  exact ⟨statuses', hat, hdone e⟩

/-- The cleanup runs from what the error leaves. -/
theorem spec_onError {p : Prog (List γ) ε α} {cleanup : Prog (List γ) ε Unit}
    (h : G.Spec p statuses done fun statuses' =>
      G.Spec cleanup statuses' (fun _ => error) error) :
    G.Spec (Prog.onError cleanup p) statuses done error := by
  intro calls hcalls
  rw [Prog.wp_onError]
  refine Prog.wp_mono (fun _ _ h => h) ?_ (fun _ h => h) p calls (h calls hcalls)
  rintro e calls' ⟨statuses', hat, hcleanup⟩
  exact hcleanup calls' hat

/-- A call goes on from the statuses that it leaves, whether it succeeded or not. -/
theorem spec_step {succeeded failed : γ} {k : Bool → Prog (List γ) ε α}
    (hsucceeded : Allowed G.earlier statuses (G.use succeeded))
    (hfailed : Allowed G.earlier statuses (G.use failed))
    (htrue : G.Spec (k true) (after statuses (G.use succeeded)) done error)
    (hfalse : G.Spec (k false) (after statuses (G.use failed)) done error) :
    G.Spec (.step (fun calls => some (succeeded :: calls)) (fun _ calls => failed :: calls) k)
      statuses done error := by
  intro calls hcalls
  refine ⟨?_, ?_, ?_⟩
  · intro calls' heq
    obtain rfl := Option.some.inj heq
    exact htrue _ (hcalls.after hsucceeded)
  · intro heq
    cases heq
  · exact fun _ => ⟨hfalse _ (hcalls.after hfailed), trivial⟩

/-- A quiet program leaves the statuses. -/
theorem Quiet.spec {p : Prog (List γ) ε α} (h : G.Quiet p) (hdone : ∀ a, done a statuses)
    (herror : error statuses) : G.Spec p statuses done error :=
  (h statuses).mono (by rintro a _ rfl; exact hdone a) (by rintro _ rfl; exact herror)

/-- A program that only returns is quiet. -/
theorem quiet_pure {a : α} : G.Quiet (pure a : Prog (List γ) ε α) := fun _ => spec_pure rfl

/-- A program that throws is quiet. -/
theorem quiet_throw {e : ε} : G.Quiet (Prog.throw e : Prog (List γ) ε α) := fun _ => spec_throw rfl

/-- Two quiet programs, one after the other. -/
theorem quiet_bind {p : Prog (List γ) ε α} {next : α → Prog (List γ) ε β} (hp : G.Quiet p)
    (hnext : ∀ a, G.Quiet (next a)) : G.Quiet (p >>= next) :=
  fun statuses => spec_bind (hp.spec (fun a => hnext a statuses) rfl)

/-- A choice between quiet programs. -/
theorem quiet_ite {c : Prop} [Decidable c] {p q : Prog (List γ) ε α} (hp : G.Quiet p)
    (hq : G.Quiet q) : G.Quiet (if c then p else q) := by
  split
  · exact hp
  · exact hq

/-- A refusal is quiet. -/
theorem quiet_refuse {e : ε} {c : Bool} : G.Quiet (Prog.refuse e c : Prog (List γ) ε Unit) :=
  quiet_ite quiet_throw quiet_pure

/-- A result that may be an error is quiet. -/
theorem quiet_ofExcept {result : Except ε α} :
    G.Quiet (Prog.ofExcept result : Prog (List γ) ε α) := by
  cases result with
  | ok a => exact quiet_pure
  | error e => exact quiet_throw

/-- A call that uses no resource is quiet when what follows is. -/
theorem quiet_step {succeeded failed : γ} {k : Bool → Prog (List γ) ε α}
    (hsucceeded : G.use succeeded = none) (hfailed : G.use failed = none)
    (hk : ∀ result, G.Quiet (k result)) :
    G.Quiet (.step (fun calls => some (succeeded :: calls))
      (fun _ calls => failed :: calls) k) := by
  intro statuses
  refine spec_step ?_ ?_ ?_ ?_
  · rw [hsucceeded]
    trivial
  · rw [hfailed]
    trivial
  · rw [hsucceeded]
    exact hk true statuses
  · rw [hfailed]
    exact hk false statuses

/-- A stage acquires a resource and goes on. Where what follows fails, it has left nothing of its
own that is held, and the drop settles the resource of the stage. -/
theorem spec_stage {r : ρ} {acquire : Prog (List γ) ε α} {drop : α → Prog (List γ) ε Unit}
    {active : α → Bool} {valid : α → Prop} {rest : α → Prog (List γ) ε β}
    {done : β → (ρ → Status) → Prop}
    (hidle : ∀ other, G.place other ≤ G.place r → statuses other = .idle)
    (hacquire : G.Spec acquire statuses
      (fun a statuses' =>
        statuses' = Function.update statuses r (if active a then .held else .idle) ∧ valid a)
      (Settles r statuses))
    (hrest : ∀ a, valid a →
      G.Spec (rest a) (Function.update statuses r (if active a then .held else .idle))
      done fun statuses' => (∀ other, G.place other < G.place r → statuses' other ≠ .held) ∧
        statuses' r = (if active a then .held else .idle) ∧
        ∀ other, G.place r < G.place other → statuses' other = statuses other)
    (hdrop : ∀ a statuses', valid a → Tracks statuses' r (active a) →
      (∀ other, G.earlier other r → statuses' other ≠ .held) →
      G.Spec (drop a) statuses' (fun _ => Settles r statuses') fun _ => False) :
    G.Spec (acquire >>= fun a => Prog.onError (drop a) (rest a)) statuses done
      (G.Left statuses (G.place r)) := by
  have hne : ∀ other, G.place other ≠ G.place r → other ≠ r := fun other h heq => h (by rw [heq])
  -- Up to this place there are the resource itself and what is given back before it.
  have hcases : ∀ other, G.place other ≤ G.place r → other = r ∨ G.place other < G.place r := by
    intro other hle
    rcases Nat.lt_or_eq_of_le hle with hlt | heq
    · exact .inr hlt
    · exact .inl (G.injective heq)
  refine spec_bind (hacquire.mono ?_ ?_)
  · rintro a _ ⟨rfl, hvalid⟩
    refine spec_onError ((hrest a hvalid).mono (fun _ _ h => h) ?_)
    -- What comes after has failed, and has given back its own; this one is given back now.
    rintro statuses' ⟨hinner, hown, houter⟩
    have htracks : Tracks statuses' r (active a) := by
      unfold Tracks
      rw [hown]
      cases active a <;> simp
    have hfirst : ∀ other, G.earlier other r → statuses' other ≠ .held :=
      fun other h => hinner other (G.lt_of_earlier other r h)
    refine (hdrop a statuses' hvalid htracks hfirst).mono ?_ (fun _ h => h.elim)
    rintro - statuses'' ⟨hsettled, hothers⟩
    refine ⟨fun other hle => ?_, fun other hlt => ?_⟩
    · rcases hcases other hle with rfl | hlt
      · exact hsettled
      · rw [hothers other (hne other (by omega))]
        exact hinner other hlt
    · rw [hothers other (hne other (by omega))]
      exact houter other hlt
  -- It was not acquired in the first place.
  · rintro statuses' ⟨hsettled, hothers⟩
    refine ⟨fun other hle => ?_, fun other hlt => hothers other (hne other (by omega))⟩
    rcases hcases other hle with rfl | hlt
    · exact hsettled
    · rw [hothers other (hne other (by omega)), hidle other hle]
      decide

end Guarding

end Mio.Library
