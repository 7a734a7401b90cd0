import Mathlib.Data.List.Basic
import Mathlib.Tactic.Common

/-!
# Splits at a mark

A text is split at the first mark in it, or at the last one. What the parts are is told by the text
alone (`splitOnce_eq_some`, `rsplitOnce_eq_some`): the mark is between them, and not in the part on
its side.
-/

namespace Mio.Library

variable {α : Type} [DecidableEq α]

/-- What is before the first mark, and what is after it. -/
def splitOnce (mark : α) : List α → Option (List α × List α)
  | [] => none
  | a :: text =>
    if a = mark then some ([], text)
    else (splitOnce mark text).map fun (before, after) => (a :: before, after)

/-- What is before the last mark, and what is after it. -/
def rsplitOnce (mark : α) (text : List α) : Option (List α × List α) :=
  (splitOnce mark text.reverse).map fun (after, before) => (before.reverse, after.reverse)

variable {mark : α} {text before after : List α}

/-- The first mark splits the text. -/
theorem splitOnce_append (h : mark ∉ before) (after : List α) :
    splitOnce mark (before ++ mark :: after) = some (before, after) := by
  induction before with
  | nil => exact if_pos rfl
  | cons a before ih =>
    rw [List.mem_cons, not_or] at h
    rw [List.cons_append, splitOnce, if_neg (Ne.symm h.1), ih h.2]
    rfl

/-- There is no split without a mark. -/
theorem splitOnce_eq_none : splitOnce mark text = none ↔ mark ∉ text := by
  induction text with
  | nil => simp [splitOnce]
  | cons a text ih =>
    rw [splitOnce, List.mem_cons, not_or]
    by_cases ha : a = mark
    · simp [ha]
    · rw [if_neg ha, Option.map_eq_none_iff, ih]
      exact (and_iff_right (Ne.symm ha)).symm

/-- A split is at the first mark. -/
theorem splitOnce_eq_some :
    splitOnce mark text = some (before, after) ↔
      text = before ++ mark :: after ∧ mark ∉ before := by
  constructor
  · intro h
    have hmem : mark ∈ text := by
      by_contra hnone
      rw [splitOnce_eq_none.mpr hnone] at h
      cases h
    obtain ⟨front, back, rfl, hfront⟩ := List.eq_append_cons_of_mem hmem
    rw [splitOnce_append hfront] at h
    obtain ⟨rfl, rfl⟩ := Prod.mk.inj (Option.some.inj h)
    exact ⟨rfl, hfront⟩
  · rintro ⟨rfl, h⟩
    exact splitOnce_append h after

/-- There is no split without a mark, from the end either. -/
theorem rsplitOnce_eq_none : rsplitOnce mark text = none ↔ mark ∉ text := by
  rw [rsplitOnce, Option.map_eq_none_iff, splitOnce_eq_none, List.mem_reverse]

/-- A split from the end is at the last mark. -/
theorem rsplitOnce_eq_some :
    rsplitOnce mark text = some (before, after) ↔
      text = before ++ mark :: after ∧ mark ∉ after := by
  have hreverse : text.reverse = after.reverse ++ mark :: before.reverse ↔
      text = before ++ mark :: after := by
    rw [List.reverse_eq_iff]
    simp
  rw [← hreverse, ← @List.mem_reverse _ mark after, ← splitOnce_eq_some, rsplitOnce,
    Option.map_eq_some_iff]
  constructor
  · rintro ⟨⟨back, front⟩, hsplit, hsame⟩
    obtain ⟨rfl, rfl⟩ := Prod.mk.inj hsame
    simpa using hsplit
  · intro hsplit
    exact ⟨_, hsplit, by simp⟩

end Mio.Library
