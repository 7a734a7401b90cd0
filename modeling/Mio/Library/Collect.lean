import Mathlib
import Mio.Library.Keyed

/-!
# Maps and their lists of entries

A map is saved as the list of its entries and read back by a loop that refuses a row that does not
pass its check and a key that occurs twice (`collect`). `collect_toList` says that the loop gives
back the map it was saved from, and `collect_eq_some` that whatever it gives consists of rows that
passed.

What a map must satisfy to be given back is a property of its entries (`AllEntries`), which
insertion and removal keep. A map that is to stay within a limit makes room for a new entry by
giving up the oldest of those it can spare (`pruneOldest`).
-/

namespace Mio.Library

open Std

variable {α κ ν : Type} {cmp : κ → κ → Ordering} [TransCmp cmp] [LawfulEqCmp cmp]

/-- What is in a map after an insertion. -/
theorem getElem?_insert_eq_some {map : ExtTreeMap κ ν cmp} {key key' : κ} {value value' : ν} :
    (map.insert key value)[key']? = some value' ↔
      key' = key ∧ value' = value ∨ key' ≠ key ∧ map[key']? = some value' := by
  rw [ExtTreeMap.getElem?_insert]
  by_cases h : cmp key key' = .eq
  · obtain rfl := LawfulEqCmp.eq_of_compare h
    rw [if_pos h]
    simp [eq_comm]
  · have hne : key' ≠ key := fun heq => h (heq ▸ ReflCmp.compare_self)
    rw [if_neg h]
    simp [hne]

/-- What is in a map after a removal. -/
theorem getElem?_erase_eq_some {map : ExtTreeMap κ ν cmp} {key key' : κ} {value : ν} :
    (map.erase key)[key']? = some value ↔ key' ≠ key ∧ map[key']? = some value := by
  rw [ExtTreeMap.getElem?_erase]
  by_cases h : cmp key key' = .eq
  · obtain rfl := LawfulEqCmp.eq_of_compare h
    rw [if_pos h]
    simp
  · have hne : key' ≠ key := fun heq => h (heq ▸ ReflCmp.compare_self)
    rw [if_neg h]
    simp [hne]

/-- Read the rows of a list into a map. `entry` is the check of a row, and its key and value. -/
def collect (entry : α → Option (κ × ν)) :
    List α → ExtTreeMap κ ν cmp → Option (ExtTreeMap κ ν cmp)
  | [], map => some map
  | row :: rows, map =>
    match entry row with
    | none => none
    | some (key, value) =>
      if map.contains key then none else collect entry rows (map.insert key value)

/-- Whatever the loop gives was in the map already or comes from a row. -/
theorem collect_eq_some {entry : α → Option (κ × ν)} {rows : List α}
    {map map' : ExtTreeMap κ ν cmp} (h : collect entry rows map = some map') (key : κ) (value : ν)
    (hkey : map'[key]? = some value) :
    map[key]? = some value ∨ ∃ row ∈ rows, entry row = some (key, value) := by
  induction rows generalizing map with
  | nil =>
    obtain rfl := Option.some.inj h
    exact .inl hkey
  | cons row rows ih =>
    rw [collect] at h
    split at h
    · cases h
    rename_i key₀ value₀ hrow
    split at h
    · cases h
    rcases ih h with hmap | ⟨row', hmem, hrow'⟩
    · rw [ExtTreeMap.getElem?_insert] at hmap
      split at hmap
      · rename_i heq
        obtain rfl := LawfulEqCmp.eq_of_compare heq
        obtain rfl := Option.some.inj hmap
        exact .inr ⟨row, List.mem_cons_self, hrow⟩
      · exact .inl hmap
    · exact .inr ⟨row', List.mem_cons_of_mem _ hmem, hrow'⟩

omit [LawfulEqCmp cmp] in
/-- The loop adds as many entries as there are rows. -/
theorem collect_size {entry : α → Option (κ × ν)} {rows : List α} {map map' : ExtTreeMap κ ν cmp}
    (h : collect entry rows map = some map') : map'.size = map.size + rows.length := by
  induction rows generalizing map with
  | nil =>
    obtain rfl := Option.some.inj h
    simp
  | cons row rows ih =>
    rw [collect] at h
    split at h
    · cases h
    split at h
    · cases h
    rename_i hnew
    rw [ih h, ExtTreeMap.size_insert, if_neg, List.length_cons]
    · omega
    · simpa using hnew

/-- The loop over rows whose entries have distinct keys that are not in the map adds them to it. -/
theorem collect_entries {entry : α → Option (κ × ν)} {rows : List α} {entries : List (κ × ν)}
    {start map : ExtTreeMap κ ν cmp} (hentry : rows.map entry = entries.map some)
    (hdistinct : entries.Pairwise fun a b => ¬cmp a.1 b.1 = .eq)
    (hfresh : ∀ e ∈ entries, start[e.1]? = none)
    (hmap : ∀ key value, map[key]? = some value ↔
      start[key]? = some value ∨ (key, value) ∈ entries) :
    collect entry rows start = some map := by
  -- By induction on the rows, for any map to start from.
  induction rows generalizing entries start with
  | nil =>
    obtain rfl : entries = [] := by simpa using hentry.symm
    rw [collect]
    congr 1
    refine ExtTreeMap.ext_getElem? fun key => Option.ext fun value => ?_
    simpa using (hmap key value).symm
  | cons row rows ih =>
    obtain ⟨⟨key, value⟩, entries, rfl⟩ : ∃ e rest, entries = e :: rest := by
      cases entries with
      | nil => simp at hentry
      | cons e rest => exact ⟨e, rest, rfl⟩
    rw [List.map_cons, List.map_cons, List.cons.injEq] at hentry
    obtain ⟨hrow, hentry⟩ := hentry
    obtain ⟨hhead, htail⟩ := List.pairwise_cons.mp hdistinct
    -- The row has a new key, so it is not refused.
    have hnew : start[key]? = none := hfresh (key, value) List.mem_cons_self
    rw [collect, hrow]
    dsimp only
    rw [if_neg (by simp [ExtTreeMap.contains_eq_isSome_getElem?, hnew])]
    refine ih hentry htail (fun e he => ?_) ?_
    · rw [ExtTreeMap.getElem?_insert, if_neg (hhead e he)]
      exact hfresh e (List.mem_cons_of_mem _ he)
    · intro k v
      rw [hmap, List.mem_cons, Prod.mk.injEq, ExtTreeMap.getElem?_insert]
      -- The entry of the first row is in the map now, and counts as one of its own.
      by_cases hk : cmp key k = .eq
      · obtain rfl := LawfulEqCmp.eq_of_compare hk
        rw [if_pos hk, hnew, Option.some.injEq]
        simp [eq_comm]
      · have hne : k ≠ key := by
          rintro rfl
          exact hk (ReflCmp.compare_self)
        rw [if_neg hk]
        simp [hne]

/-- A map is read back from its rows, with its values changed as the check of a row changes them. -/
theorem collect_map {entry : α → Option (κ × ν)} {row : κ × ν → α} {change : ν → ν}
    {map map' : ExtTreeMap κ ν cmp} (hmap : ∀ key : κ, map'[key]? = map[key]?.map change)
    (hentry : ∀ key value, map[key]? = some value →
      entry (row (key, value)) = some (key, change value)) :
    collect entry (map.toList.map row) ∅ = some map' := by
  have hrows : (map.toList.map row).map entry =
      (map.toList.map fun e => (e.1, change e.2)).map some := by
    rw [List.map_map, List.map_map]
    refine List.map_congr_left ?_
    rintro ⟨key, value⟩ hmem
    exact hentry key value (ExtTreeMap.mem_toList_iff_getElem?_eq_some.mp hmem)
  refine collect_entries hrows ?_ (by simp) ?_
  · rw [List.pairwise_map]
    exact ExtTreeMap.distinct_keys_toList
  · intro key value
    have hnone : (∅ : ExtTreeMap κ ν cmp)[key]? = none := by simp
    rw [hmap, hnone, Option.map_eq_some_iff]
    simp only [reduceCtorEq, false_or, List.mem_map, Prod.exists, Prod.mk.injEq,
      ExtTreeMap.mem_toList_iff_getElem?_eq_some]
    constructor
    · rintro ⟨old, hold, rfl⟩
      exact ⟨key, old, hold, rfl, rfl⟩
    · rintro ⟨_, old, hold, rfl, rfl⟩
      exact ⟨old, hold, rfl⟩

/-- A map is read back from its rows. -/
theorem collect_toList {entry : α → Option (κ × ν)} {row : κ × ν → α} {map : ExtTreeMap κ ν cmp}
    (hentry : ∀ key value, map[key]? = some value → entry (row (key, value)) = some (key, value)) :
    collect entry (map.toList.map row) ∅ = some map :=
  collect_map (fun key => by simp) hentry

/-! ## Maps of valid entries -/

section Entries

variable {valid : κ → ν → Prop} {map : ExtTreeMap κ ν cmp}

/-- Every entry of the map is valid. -/
def AllEntries (valid : κ → ν → Prop) (map : ExtTreeMap κ ν cmp) : Prop :=
  ∀ (key : κ) (value : ν), map[key]? = some value → valid key value

omit [LawfulEqCmp cmp] in
/-- The empty map has no bad entry. -/
theorem AllEntries.empty : AllEntries valid (∅ : ExtTreeMap κ ν cmp) := by
  intro key value h
  simp at h

/-- Inserting a good entry keeps the entries good. -/
theorem AllEntries.insert (h : AllEntries valid map) {key : κ} {value : ν}
    (hvalid : valid key value) : AllEntries valid (map.insert key value) := by
  intro other found hfound
  rw [ExtTreeMap.getElem?_insert] at hfound
  split at hfound
  · rename_i heq
    obtain rfl := LawfulEqCmp.eq_of_compare heq
    obtain rfl := Option.some.inj hfound
    exact hvalid
  · exact h other found hfound

omit [LawfulEqCmp cmp] in
/-- Erasing keeps the entries good. -/
theorem AllEntries.erase (h : AllEntries valid map) (key : κ) : AllEntries valid
    (map.erase key) := by
  intro other found hfound
  rw [ExtTreeMap.getElem?_erase] at hfound
  split at hfound
  · cases hfound
  · exact h other found hfound

/-- A map of at most `limit` entries, each of them valid. -/
structure ValidMap (limit : ℕ) (valid : κ → ν → Prop) (map : ExtTreeMap κ ν cmp) : Prop where
  size : map.size ≤ limit
  entries : AllEntries valid map

omit [LawfulEqCmp cmp] in
/-- The empty map is valid. -/
theorem ValidMap.empty (limit : ℕ) : ValidMap limit valid (∅ : ExtTreeMap κ ν cmp) :=
  ⟨by simp, .empty⟩

/-- A valid entry can be put in where there is room for it. -/
theorem ValidMap.insert {limit : ℕ} (h : ValidMap limit valid map) {key : κ} {value : ν}
    (hvalid : valid key value) (hroom : map.contains key = true ∨ map.size < limit) :
    ValidMap limit valid (map.insert key value) := by
  refine ⟨?_, h.entries.insert hvalid⟩
  have hsize := h.size
  rw [ExtTreeMap.size_insert]
  split
  · exact hsize
  · rename_i hnew
    have := hroom.resolve_left hnew
    omega

/-- Remove the first of the smallest entries that can be spared, where the map is at its limit. -/
def pruneOldest (limit : ℕ) (key : ν → κ) (less : ν → ν → Bool) (spare : ν → Bool)
    (map : ExtTreeMap κ ν cmp) : ExtTreeMap κ ν cmp :=
  if map.size < limit then map
  else
    match minBy less ((map.toList.map (·.2)).filter spare) with
    | some value => map.erase (key value)
    | none => map

/-- What is removed is one entry that can be spared, if anything is. -/
theorem pruneOldest_cases (limit : ℕ) {key : ν → κ} (less : ν → ν → Bool) (spare : ν → Bool)
    (hkey : AllEntries (fun k value => key value = k) map) :
    pruneOldest limit key less spare map = map ∨
      ∃ k value, map[k]? = some value ∧ spare value = true ∧
        pruneOldest limit key less spare map = map.erase k := by
  unfold pruneOldest
  split
  · exact .inl rfl
  split
  · rename_i value holdest
    obtain ⟨hmem, hspare⟩ := List.mem_filter.mp (minBy_mem holdest)
    obtain ⟨⟨k, value'⟩, hentry, rfl⟩ := List.mem_map.mp hmem
    have hvalue := ExtTreeMap.mem_toList_iff_getElem?_eq_some.mp hentry
    refine .inr ⟨k, value', hvalue, hspare, ?_⟩
    rw [hkey k value' hvalue]
  · exact .inl rfl

/-- Below the limit, and where no entry can be spared, nothing is removed. -/
theorem pruneOldest_eq_self {limit : ℕ} {key : ν → κ} {less : ν → ν → Bool} {spare : ν → Bool}
    (hkey : AllEntries (fun k value => key value = k) map)
    (h : map.size < limit ∨ AllEntries (fun _ value => spare value = false) map) :
    pruneOldest limit key less spare map = map := by
  rcases h with hsize | hspare
  · exact if_pos hsize
  · rcases pruneOldest_cases limit less spare hkey with heq | ⟨k, value, hvalue, hspared, -⟩
    · exact heq
    · rw [hspare k value hvalue] at hspared
      cases hspared

/-- At the limit, an entry that can be spared is removed, if there is one. -/
theorem pruneOldest_eq_erase {limit : ℕ} {key : ν → κ} {less : ν → ν → Bool} {spare : ν → Bool}
    (hkey : AllEntries (fun k value => key value = k) map) (hfull : limit ≤ map.size)
    (hspare : ¬AllEntries (fun _ value => spare value = false) map) :
    ∃ k value, map[k]? = some value ∧ spare value = true ∧
      pruneOldest limit key less spare map = map.erase k := by
  unfold pruneOldest
  rw [if_neg (by omega)]
  rcases holdest : minBy less ((map.toList.map (·.2)).filter spare) with _ | value
  · refine absurd (fun k value hvalue => ?_) hspare
    have hnone : (map.toList.map (·.2)).filter spare = [] := by
      cases hrest : (map.toList.map (·.2)).filter spare with
      | nil => rfl
      | cons first rest =>
        rw [hrest] at holdest
        cases holdest
    have hmem : value ∈ map.toList.map (·.2) :=
      List.mem_map.mpr ⟨(k, value), ExtTreeMap.mem_toList_iff_getElem?_eq_some.mpr hvalue, rfl⟩
    simpa using List.filter_eq_nil_iff.mp hnone value hmem
  · obtain ⟨hmem, hspared⟩ := List.mem_filter.mp (minBy_mem holdest)
    obtain ⟨⟨k, value'⟩, hentry, rfl⟩ := List.mem_map.mp hmem
    have hvalue := ExtTreeMap.mem_toList_iff_getElem?_eq_some.mp hentry
    refine ⟨k, value', hvalue, hspared, ?_⟩
    rw [holdest]
    show map.erase (key value') = map.erase k
    rw [hkey k value' hvalue]

/-- Pruning makes room exactly where there is room already, or an entry can be spared. -/
theorem pruneOldest_size_lt {limit : ℕ} {key : ν → κ} {less : ν → ν → Bool} {spare : ν → Bool}
    (h : ValidMap limit valid map) (hkey : AllEntries (fun k value => key value = k) map) :
    (pruneOldest limit key less spare map).size < limit ↔
      map.size < limit ∨ ¬AllEntries (fun _ value => spare value = false) map := by
  have hsize := h.size
  by_cases hroom : map.size < limit
  · rw [pruneOldest_eq_self hkey (.inl hroom)]
    exact ⟨.inl, fun _ => hroom⟩
  by_cases hspare : AllEntries (fun _ value => spare value = false) map
  · rw [pruneOldest_eq_self hkey (.inr hspare)]
    constructor
    · exact .inl
    · intro h
      exact h.resolve_right fun hnot => hnot hspare
  · refine ⟨fun _ => .inr hspare, fun _ => ?_⟩
    have hfull : limit ≤ map.size := by omega
    obtain ⟨k, value, hvalue, -, heq⟩ : ∃ k value, map[k]? = some value ∧ spare value = true ∧
        pruneOldest limit key less spare map = map.erase k :=
      pruneOldest_eq_erase hkey hfull hspare
    have hmem : map.contains k = true := by
      rw [ExtTreeMap.contains_eq_isSome_getElem?, hvalue]
      rfl
    have hpos : map.size ≠ 0 := by
      intro hzero
      rw [ExtTreeMap.eq_empty_iff_size_eq_zero.mpr hzero] at hvalue
      simp at hvalue
    rw [heq, ExtTreeMap.size_erase, if_pos hmem]
    omega

/-- There is room for an entry, or an entry that can be spared for it. -/
def HasRoom (limit : ℕ) (spare : ν → Bool) (map : ExtTreeMap κ ν cmp) : Prop :=
  map.size < limit ∨ ∃ (key : κ) (value : ν), map[key]? = some value ∧ spare value = true

/-- Some of the entries, with room for one more: all, or all but one that can be spared. -/
structure KeptFor (limit : ℕ) (spare : ν → Bool) (map kept : ExtTreeMap κ ν cmp) : Prop where
  size : kept.size < limit
  entries : kept = map ∨ ∃ (key : κ) (value : ν), map[key]? = some value ∧ spare value = true ∧
    kept = map.erase key

omit [LawfulEqCmp cmp] in
/-- Not all entries are needed exactly when one of them is spare. -/
theorem not_allEntries_of_spare {spare : ν → Bool} :
    ¬AllEntries (fun _ value => spare value = false) map ↔
      ∃ (key : κ) (value : ν), map[key]? = some value ∧ spare value = true := by
  simp [AllEntries]

/-- Where there is room or an entry to spare, there is room after the oldest is removed. -/
theorem pruneOldest_keptFor {limit : ℕ} {key : ν → κ} {less : ν → ν → Bool} {spare : ν → Bool}
    (h : ValidMap limit valid map) (hkey : AllEntries (fun k value => key value = k) map)
    (hroom : HasRoom limit spare map) :
    KeptFor limit spare map (pruneOldest limit key less spare map) := by
  refine ⟨(pruneOldest_size_lt h hkey).mpr (hroom.imp_right not_allEntries_of_spare.mpr), ?_⟩
  exact pruneOldest_cases limit less spare hkey

/-- Otherwise there is none, and nothing is removed. -/
theorem pruneOldest_full {limit : ℕ} {key : ν → κ} {less : ν → ν → Bool} {spare : ν → Bool}
    (hkey : AllEntries (fun k value => key value = k) map) (hfull : ¬HasRoom limit spare map) :
    pruneOldest limit key less spare map = map ∧ limit ≤ map.size := by
  unfold HasRoom at hfull
  rw [not_or, ← not_allEntries_of_spare, not_not] at hfull
  exact ⟨pruneOldest_eq_self hkey (.inr hfull.2), by omega⟩

/-- Pruning keeps the map valid. -/
theorem ValidMap.prune {limit : ℕ} {key : ν → κ} {less : ν → ν → Bool} {spare : ν → Bool}
    (h : ValidMap limit valid map) (hkey : AllEntries (fun k value => key value = k) map) :
    ValidMap limit valid (pruneOldest limit key less spare map) := by
  rcases pruneOldest_cases limit less spare hkey with heq | ⟨k, value, -, -, heq⟩
  · rwa [heq]
  · rw [heq]
    exact ⟨ExtTreeMap.size_erase_le.trans h.size, h.entries.erase k⟩

end Entries

end Mio.Library
