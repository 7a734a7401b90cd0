import Mathlib.Data.List.Nodup
import Mathlib.Tactic.Common

/-!
# The latest entries of a log

The last `n` entries of a list that entries are only added to. An entry leaves them and does not
come back, so what is among the latest now, and was there at an earlier time, was among the latest
then (`mem_latest_of_earlier`).
-/

namespace Mio.Library

variable {α : Type*}

/-- The last `n` entries. -/
def latest (n : ℕ) (l : List α) : List α := l.drop (l.length - n)

/-- The latest elements are among the list, in its order. -/
theorem latest_sublist (n : ℕ) (l : List α) : (latest n l).Sublist l := List.drop_sublist _ l

/-- Each of the latest elements is in the list. -/
theorem mem_of_mem_latest {n : ℕ} {l : List α} {a : α} (h : a ∈ latest n l) : a ∈ l :=
  (latest_sublist n l).subset h

/-- Of the latest entries, all but the new one were among them. -/
theorem mem_latest_append_singleton {n : ℕ} {l : List α} {a b : α}
    (h : b ∈ latest n (l ++ [a])) : b = a ∨ b ∈ latest n l := by
  rw [latest, List.length_append, List.length_singleton, List.drop_append, List.mem_append] at h
  rcases h with h | h
  · have hdrop : l.drop (l.length + 1 - n) =
      (latest n l).drop (l.length + 1 - n - (l.length - n)) := by
      rw [latest, List.drop_drop]
      congr 1
      omega
    rw [hdrop] at h
    exact .inr (List.mem_of_mem_drop h)
  · exact .inl (List.mem_singleton.mp (List.mem_of_mem_drop h))

/-- What is among the latest entries, and was in the log at an earlier time, was among the latest
entries then. -/
theorem mem_latest_of_earlier {n : ℕ} {l earlier : List α} {a : α} (hpre : earlier <+: l)
    (hnodup : l.Nodup) (h : a ∈ latest n l) (hmem : a ∈ earlier) : a ∈ latest n earlier := by
  obtain ⟨later, rfl⟩ := hpre
  rw [latest, List.length_append, List.drop_append, List.mem_append] at h
  rcases h with h | h
  · have hdrop : earlier.drop (earlier.length + later.length - n) =
        (latest n earlier).drop (earlier.length + later.length - n - (earlier.length - n)) := by
      rw [latest, List.drop_drop]
      congr 1
      omega
    rw [hdrop] at h
    exact List.mem_of_mem_drop h
  · -- It would be in the log twice.
    exact absurd (List.mem_of_mem_drop h) ((List.nodup_append'.mp hnodup).2.2 hmem)

end Mio.Library
