import Mathlib.Data.List.Basic
import Mio.Library.Collect

/-!
# A queue beside a map

A program keeps entries in a map and the keys of those that are still pending in a list. A new entry
goes to the end of the list, and an entry that is settled stays in the map and leaves the list. The
log is the list of all keys in the order in which they came. `InOrder` says that the two are in
step: the list is the log without what is settled.
-/

namespace Mio.Library

open Std

variable {κ ν : Type} {cmp : κ → κ → Ordering} [TransCmp cmp]

/-- Whether the entry under the key is pending. -/
def isPendingAt (isPending : ν → Bool) (states : ExtTreeMap κ ν cmp) (key : κ) : Bool :=
  states[key]?.any isPending

/-- The keys came in the order of the log, each once, and those that are still pending wait in that
order. -/
structure InOrder (isPending : ν → Bool) (log order : List κ) (states : ExtTreeMap κ ν cmp) :
    Prop where
  nodup : log.Nodup
  keys : ∀ key, key ∈ log ↔ key ∈ states
  order : order = log.filter (isPendingAt isPending states)

namespace InOrder

variable {isPending : ν → Bool} {log order : List κ} {states : ExtTreeMap κ ν cmp} {key : κ}
  {value : ν}

/-- The empty outbox is in order. -/
theorem empty (isPending : ν → Bool) : InOrder isPending [] [] (∅ : ExtTreeMap κ ν cmp) :=
  ⟨List.nodup_nil, fun key => by simp, rfl⟩

/-- The order has exactly the pending keys. -/
theorem mem_order_iff (h : InOrder isPending log order states) :
    key ∈ order ↔ isPendingAt isPending states key = true := by
  rw [h.order, List.mem_filter, h.keys]
  refine and_iff_right_of_imp fun hpending => ?_
  unfold isPendingAt at hpending
  rw [Option.any_eq_true] at hpending
  obtain ⟨value, hvalue, -⟩ := hpending
  exact ExtTreeMap.mem_iff_isSome_getElem?.mpr (by rw [hvalue]; rfl)

/-- No key is in the order twice. -/
theorem order_nodup (h : InOrder isPending log order states) : order.Nodup := by
  rw [h.order]
  exact h.nodup.filter _

/-- An inserted key is pending when its value is. -/
theorem isPendingAt_insert_self :
    isPendingAt isPending (states.insert key value) key = isPending value := by
  unfold isPendingAt
  rw [ExtTreeMap.getElem?_insert_self]
  rfl

/-- Inserting a key leaves the others. -/
theorem isPendingAt_insert_of_ne [LawfulEqCmp cmp] {other : κ} (hne : other ≠ key) :
    isPendingAt isPending (states.insert key value) other = isPendingAt isPending states other := by
  have hcmp : cmp key other ≠ .eq := fun h => hne (LawfulEqCmp.eq_of_compare h).symm
  unfold isPendingAt
  rw [ExtTreeMap.getElem?_insert, if_neg hcmp]

/-- A new entry waits behind the others. -/
theorem push [LawfulEqCmp cmp] (h : InOrder isPending log order states) (hfresh : key ∉ states)
    (hvalue : isPending value = true) :
    InOrder isPending (log ++ [key]) (order ++ [key]) (states.insert key value) := by
  have hnew : key ∉ log := fun hmem => hfresh ((h.keys key).mp hmem)
  constructor
  · exact List.nodup_append.mpr ⟨h.nodup, List.nodup_singleton key, fun a ha b hb hab => by
      rw [List.mem_singleton.mp hb] at hab
      exact hnew (hab ▸ ha)⟩
  · intro other
    rw [List.mem_append, List.mem_singleton, h.keys, ExtTreeMap.mem_insert,
      LawfulEqCmp.compare_eq_iff_eq, or_comm]
    exact or_congr_left eq_comm
  · rw [List.filter_append, h.order]
    congr 1
    · refine List.filter_congr fun other hother => ?_
      have hne : other ≠ key := fun heq => hnew (heq ▸ hother)
      rw [isPendingAt_insert_of_ne hne]
    · rw [List.filter_singleton, isPendingAt_insert_self, hvalue]
      rfl

/-- A settled entry leaves the list, and the others wait as before. -/
theorem settle [LawfulEqCmp cmp] [DecidableEq κ] (h : InOrder isPending log order states)
    (hkey : key ∈ states)
    (hvalue : isPending value = false) :
    InOrder isPending log (order.filter fun other => other ≠ key) (states.insert key value) := by
  constructor
  · exact h.nodup
  · intro other
    rw [h.keys, ExtTreeMap.mem_insert, LawfulEqCmp.compare_eq_iff_eq]
    constructor
    · exact .inr
    · rintro (rfl | hother)
      · exact hkey
      · exact hother
  · rw [h.order, List.filter_filter]
    refine List.filter_congr fun other _ => ?_
    by_cases hne : other = key
    · rw [hne, isPendingAt_insert_self, hvalue]
      simp
    · rw [isPendingAt_insert_of_ne hne]
      simp [hne]

/-- The first of the waiting entries is the first of the list. -/
theorem findSome?_order {α : Type} (h : InOrder isPending log order states) {get : ν → Option α}
    (hget : ∀ value, (get value).isSome = isPending value) :
    (order.findSome? fun other => states[other]?.bind get) =
      order.head?.bind fun first => states[first]?.bind get := by
  cases horder : order with
  | nil => rfl
  | cons first rest =>
    have hfirst : isPendingAt isPending states first = true := by
      rw [← h.mem_order_iff, horder]
      exact List.mem_cons_self
    unfold isPendingAt at hfirst
    rw [Option.any_eq_true] at hfirst
    obtain ⟨value, hvalue, hpending⟩ := hfirst
    rw [List.findSome?_cons, List.head?_cons, Option.bind_some, hvalue, Option.bind_some]
    rw [← hget] at hpending
    obtain ⟨a, ha⟩ := Option.isSome_iff_exists.mp hpending
    rw [ha]

end InOrder

end Mio.Library
