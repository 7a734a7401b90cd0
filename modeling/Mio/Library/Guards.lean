import Mathlib.Data.List.Basic
import Mathlib.Logic.Function.Basic
import Mathlib.Tactic.Common

/-!
# Resources under guards

A program acquires resources, and it has to release each of them, in an order that it keeps to. A
release can fail, and then it may be tried again. `Orderly` says of each use of a resource that it
is allowed after the uses before it, so an orderly trace is built use by use, and `Status` is what
there is to know of a resource then. Where no resource is left as it was acquired, an orderly trace
has the laws of a clean-up (`Stands.cleanUp`).

A trace is the list of the uses so far, with the latest first.
-/

namespace Mio.Library

/-- A resource is acquired, or a release of it is attempted. -/
inductive Use (ρ : Type) where
  | acquire (r : ρ)
  | release (r : ρ) (succeeded : Bool)
  deriving DecidableEq

/-- What has become of a resource. -/
inductive Status where
  /-- It was never acquired. -/
  | idle
  /-- It was acquired, and no release of it was attempted. -/
  | held
  /-- Every attempt to release it failed. -/
  | kept
  /-- It was released. -/
  | released
  deriving DecidableEq

variable {ρ : Type} [DecidableEq ρ] {earlier : ρ → ρ → Prop} {uses : List (Use ρ)}

/-- Where a resource is after its uses, the latest first. -/
def status (r : ρ) : List (Use ρ) → Status
  | [] => .idle
  | .acquire other :: past => if other = r then .held else status r past
  | .release other succeeded :: past =>
    if other = r then if succeeded then .released else .kept else status r past

/-- A resource is acquired once. It is released when it has been acquired and is not released yet,
and when no resource that goes earlier is as it was acquired. -/
inductive Orderly (earlier : ρ → ρ → Prop) : List (Use ρ) → Prop
  | nil : Orderly earlier []
  | acquire {r : ρ} {past : List (Use ρ)} (hidle : status r past = .idle)
    (h : Orderly earlier past) : Orderly earlier (.acquire r :: past)
  | release {r : ρ} {succeeded : Bool} {past : List (Use ρ)}
    (hactive : status r past = .held ∨ status r past = .kept)
    (hfirst : ∀ other, earlier other r → status other past ≠ .held)
    (h : Orderly earlier past) : Orderly earlier (.release r succeeded :: past)

/-- What is left is released, in the order, and nothing is released that is not there. -/
structure CleanUp (earlier : ρ → ρ → Prop) (uses : List (Use ρ)) : Prop where
  /-- What was acquired has its release attempted. -/
  attempted : ∀ r, .acquire r ∈ uses → ∃ succeeded, .release r succeeded ∈ uses
  /-- A release is attempted of what was acquired, and not again once it has succeeded. -/
  due : ∀ later r succeeded past, uses = later ++ .release r succeeded :: past →
    .acquire r ∈ past ∧ .release r true ∉ past
  /-- What goes earlier has had its release attempted by then. -/
  ordered : ∀ later r succeeded past, uses = later ++ .release r succeeded :: past →
    ∀ other, earlier other r → .acquire other ∈ past → ∃ succeeded, .release other succeeded ∈ past

/-- What came before orderly uses was orderly. -/
theorem Orderly.past {later past : List (Use ρ)} (h : Orderly earlier (later ++ past)) :
    Orderly earlier past := by
  induction later with
  | nil => exact h
  | cons use later ih =>
    cases h with
    | acquire _ h => exact ih h
    | release _ _ h => exact ih h

/-- What the status says of the trace. -/
theorem Orderly.status_spec (h : Orderly earlier uses) (r : ρ) :
    match status r uses with
    | .idle => .acquire r ∉ uses ∧ ∀ succeeded, .release r succeeded ∉ uses
    | .held => .acquire r ∈ uses ∧ ∀ succeeded, .release r succeeded ∉ uses
    | .kept => .acquire r ∈ uses ∧ .release r true ∉ uses ∧ .release r false ∈ uses
    | .released => .acquire r ∈ uses ∧ .release r true ∈ uses := by
  induction h with
  | nil => simp [status]
  | @acquire other past hidle _ ih =>
    by_cases hr : other = r
    · subst hr
      rw [hidle] at ih
      have hnow : status other (.acquire other :: past) = .held := if_pos rfl
      rw [hnow]
      simp [ih.2]
    -- The use is of another resource.
    · have hsame : status r (.acquire other :: past) = status r past := if_neg hr
      rw [hsame]
      rcases hstatus : status r past <;> rw [hstatus] at ih <;> simpa [Ne.symm hr] using ih
  | @release other succeeded past hactive _ _ ih =>
    by_cases hr : other = r
    · subst hr
      have hin : .acquire other ∈ past ∧ .release other true ∉ past := by
        rcases hactive with hheld | hkept
        · rw [hheld] at ih
          exact ⟨ih.1, ih.2 true⟩
        · rw [hkept] at ih
          exact ⟨ih.1, ih.2.1⟩
      have hnow : status other (.release other succeeded :: past) =
          if succeeded then .released else .kept := if_pos rfl
      rw [hnow]
      cases succeeded <;> simp [hin]
    · have hsame : status r (.release other succeeded :: past) = status r past := if_neg hr
      rw [hsame]
      rcases hstatus : status r past <;> rw [hstatus] at ih <;> simpa [Ne.symm hr] using ih

/-- An orderly trace, and what has become of each resource. -/
structure Stands (earlier : ρ → ρ → Prop) (statuses : ρ → Status) (uses : List (Use ρ)) : Prop where
  orderly : Orderly earlier uses
  statuses : ∀ r, status r uses = statuses r

namespace Stands

variable {statuses : ρ → Status} {r : ρ}

/-- Before any use all resources are idle. -/
theorem nil : Stands earlier (fun _ => .idle) [] := ⟨.nil, fun _ => rfl⟩

/-- An idle resource may be acquired. -/
theorem acquire (h : Stands earlier statuses uses) (hidle : statuses r = .idle) :
    Stands earlier (Function.update statuses r .held) (.acquire r :: uses) where
  orderly := .acquire ((h.statuses r).trans hidle) h.orderly
  statuses other := by
    by_cases hr : r = other
    · subst hr
      simp [status]
    · simp [status, hr, Ne.symm hr, h.statuses]

/-- A resource may be released once those before it are. -/
theorem release (h : Stands earlier statuses uses)
    (hactive : statuses r = .held ∨ statuses r = .kept)
    (hfirst : ∀ other, earlier other r → statuses other ≠ .held) (succeeded : Bool) :
    Stands earlier (Function.update statuses r (if succeeded then .released else .kept))
      (.release r succeeded :: uses) where
  orderly := .release (by rwa [h.statuses])
    (fun other hother => by rw [h.statuses]; exact hfirst other hother) h.orderly
  statuses other := by
    by_cases hr : r = other
    · subst hr
      simp [status]
    · simp [status, hr, Ne.symm hr, h.statuses]

/-- Where nothing is as it was acquired, the trace is one of a clean-up. -/
theorem cleanUp (h : Stands earlier statuses uses) (hdone : ∀ r, statuses r ≠ .held) :
    CleanUp earlier uses where
  attempted r hacquire := by
    have hstatus := h.orderly.status_spec r
    have hheld := hdone r
    rw [← h.statuses] at hheld
    -- A resource that was acquired is held, kept or released.
    rcases hr : status r uses <;> rw [hr] at hstatus hheld
    · exact absurd hacquire hstatus.1
    · exact absurd rfl hheld
    · exact ⟨false, hstatus.2.2⟩
    · exact ⟨true, hstatus.2⟩
  due later r succeeded past heq := by
    have hsuffix := h.orderly
    rw [heq] at hsuffix
    cases hsuffix.past with
    | release hactive _ hpast =>
      have hstatus := hpast.status_spec r
      rcases hactive with hheld | hkept
      · rw [hheld] at hstatus
        exact ⟨hstatus.1, hstatus.2 true⟩
      · rw [hkept] at hstatus
        exact ⟨hstatus.1, hstatus.2.1⟩
  ordered later r succeeded past heq other hother hacquire := by
    have hsuffix := h.orderly
    rw [heq] at hsuffix
    cases hsuffix.past with
    | release _ hfirst hpast =>
      have hstatus := hpast.status_spec other
      have hheld := hfirst other hother
      rcases hr : status other past <;> rw [hr] at hstatus hheld
      · exact absurd hacquire hstatus.1
      · exact absurd rfl hheld
      · exact ⟨false, hstatus.2.2⟩
      · exact ⟨true, hstatus.2⟩

/-- What was acquired was released, if all of it is idle or released. -/
theorem released (h : Stands earlier statuses uses)
    (hdone : statuses r = .idle ∨ statuses r = .released) (hacquire : .acquire r ∈ uses) :
    .release r true ∈ uses := by
  have hstatus := h.orderly.status_spec r
  rw [h.statuses] at hstatus
  rcases hdone with hidle | hreleased
  · rw [hidle] at hstatus
    exact absurd hacquire hstatus.1
  · rw [hreleased] at hstatus
    exact hstatus.2

end Stands

end Mio.Library
