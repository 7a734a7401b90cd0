import Mio.Library.Keyed

/-!
# Windows of a log

A log is a list of entries with distinct keys, and a reader of it takes one window after the other:
the entries strictly between where it was and where it goes. It may keep only some of the entries,
and leave out some of the windows. `mem_taken_iff` says which entries it gets, and `taken_sublist`
that it gets them in the log's order, each once.
-/

namespace Mio.Library

open scoped List

variable {α κ : Type} [BEq κ] [LawfulBEq κ] {key : α → κ} {log : List α}

/-- Where the entry under a key is, if there is one. -/
def position (key : α → κ) (log : List α) (k : κ) : ℕ := log.findIdx fun a => key a == k

/-- The entries strictly between two positions. -/
def between (log : List α) (first last : ℕ) : List α := (log.take last).drop (first + 1)

/-- A key of the log has a position in it. -/
theorem position_lt_length {k : κ} : position key log k < log.length ↔ k ∈ log.map key := by
  unfold position
  rw [List.findIdx_lt_length]
  simp only [List.mem_map, beq_iff_eq]

/-- The position of an element that is at an index. -/
theorem position_of_getElem? (hnodup : (log.map key).Nodup) {i : ℕ} {a : α}
    (ha : log[i]? = some a) : position key log (key a) = i := by
  have hfound := findIdx?_key hnodup ha
  rw [List.findIdx?_eq_some_iff_findIdx_eq] at hfound
  exact hfound.2

/-- What is at the position of an element. -/
theorem getElem?_position (hnodup : (log.map key).Nodup) {a : α} (ha : a ∈ log) :
    log[position key log (key a)]? = some a := by
  obtain ⟨i, hi⟩ := List.mem_iff_getElem?.mp ha
  rw [position_of_getElem? hnodup hi]
  exact hi

/-- An entry is told by its position. -/
theorem position_inj (hnodup : (log.map key).Nodup) {a b : α} (ha : a ∈ log) (hb : b ∈ log)
    (h : position key log (key a) = position key log (key b)) : key a = key b := by
  have hata := getElem?_position hnodup ha
  rw [h, getElem?_position hnodup hb] at hata
  rw [Option.some.inj hata]

/-- The position of what is there does not change when entries are added. -/
theorem position_prefix {first : List α} {k : κ} (hpre : first <+: log) (hk : k ∈ first.map key) :
    position key first k = position key log k := by
  obtain ⟨added, rfl⟩ := hpre
  have hlt := position_lt_length.mpr hk
  unfold position at hlt ⊢
  rw [List.findIdx_append, if_pos hlt]

/-- A longer log has the same elements between two positions that the shorter one has. -/
theorem between_extend {pre : List α} (hpre : pre <+: log) {first last : ℕ}
    (hlast : last ≤ pre.length) : between pre first last = between log first last := by
  obtain ⟨added, rfl⟩ := hpre
  unfold between
  rw [List.take_append_of_le_length hlast]

/-- What is between two positions, by the position of its key. -/
theorem mem_between_iff (hnodup : (log.map key).Nodup) {first last : ℕ} {a : α} :
    a ∈ between log first last ↔
      a ∈ log ∧ first < position key log (key a) ∧ position key log (key a) < last := by
  constructor
  · intro h
    obtain ⟨i, hi⟩ := List.mem_iff_getElem?.mp h
    unfold between at hi
    rw [List.getElem?_drop, List.getElem?_take] at hi
    split at hi
    · have hposition := position_of_getElem? hnodup hi
      exact ⟨List.mem_of_getElem? hi, by omega, by omega⟩
    · cases hi
  · rintro ⟨hmem, hfirst, hlast⟩
    have hat := getElem?_position hnodup hmem
    refine List.mem_of_getElem? (i := position key log (key a) - (first + 1)) ?_
    unfold between
    rw [List.getElem?_drop, List.getElem?_take, Nat.add_sub_cancel' (by omega), if_pos hlast]
    exact hat

/-- What comes before a position and what comes after it are in the order of the log. -/
theorem between_append_sublist {first last : ℕ} {kept rest : List α} (h : first < last)
    (hkept : kept <+ between log first last) (hrest : rest <+ log.drop (last + 1)) :
    kept ++ rest <+ log.drop (first + 1) := by
  have hrestDrop : log.drop last = (log.drop (first + 1)).drop (last - (first + 1)) := by
    rw [List.drop_drop, Nat.add_sub_cancel' (by omega)]
  have hsplit : between log first last ++ log.drop last = log.drop (first + 1) := by
    unfold between
    rw [List.drop_take, hrestDrop, List.take_append_drop]
  have htail : log.drop (last + 1) <+ log.drop last :=
    List.drop_sublist_drop_left log (Nat.le_succ last)
  rw [← hsplit]
  exact hkept.append (hrest.trans htail)

/-! ## One window after the other -/

/-- A window of a log, and whether the reader takes it. -/
structure Window where
  first : ℕ
  last : ℕ
  isTaken : Bool

/-- Each window begins where the one before it ended. -/
def Chained : ℕ → List Window → Prop
  | _, [] => True
  | start, window :: windows =>
    window.first = start ∧ start < window.last ∧ Chained window.last windows

/-- Where the last window ends. -/
def finish : ℕ → List Window → ℕ
  | start, [] => start
  | _, window :: windows => finish window.last windows

/-- What a reader gets that keeps some of the entries. -/
def taken (log : List α) (keep : α → Bool) (windows : List Window) : List α :=
  windows.flatMap fun window =>
    if window.isTaken then (between log window.first window.last).filter keep else []

variable {keep : α → Bool}

/-- A chain of windows does not end before its start. -/
theorem le_finish {start : ℕ} {windows : List Window} (h : Chained start windows) :
    start ≤ finish start windows := by
  induction windows generalizing start with
  | nil => exact Nat.le_refl _
  | cons window windows ih =>
    obtain ⟨-, hlt, hrest⟩ := h
    have hle := ih hrest
    unfold finish
    omega

/-- No window of a chain begins before its start. -/
theorem le_first {start : ℕ} {windows : List Window} (h : Chained start windows) {window : Window}
    (hwindow : window ∈ windows) : start ≤ window.first ∧ window.first < window.last := by
  induction windows generalizing start with
  | nil => cases hwindow
  | cons head windows ih =>
    obtain ⟨hfirst, hlt, hrest⟩ := h
    rcases List.mem_cons.mp hwindow with rfl | hwindow
    · omega
    · obtain ⟨hle, hwindowLt⟩ := ih hrest hwindow
      omega

/-- The reader gets the entries in the log's order, each once. -/
theorem taken_sublist {start : ℕ} {windows : List Window} (h : Chained start windows) :
    taken log keep windows <+ log.drop (start + 1) := by
  induction windows generalizing start with
  | nil => exact List.nil_sublist _
  | cons window windows ih =>
    obtain ⟨rfl, hlt, hrest⟩ := h
    unfold taken
    rw [List.flatMap_cons]
    refine between_append_sublist hlt ?_ (ih hrest)
    split
    · exact List.filter_sublist
    · exact List.nil_sublist _

/-- The reader gets the entries that it keeps between its first position and its last one, without
those that it stopped at and those in a window that it left out. -/
theorem mem_taken_iff (hnodup : (log.map key).Nodup) {start : ℕ} {windows : List Window}
    (h : Chained start windows) {a : α} :
    a ∈ taken log keep windows ↔
      a ∈ log ∧ keep a = true ∧ start < position key log (key a) ∧
        position key log (key a) < finish start windows ∧
        ∀ window ∈ windows, position key log (key a) ≠ window.last ∧
          (window.isTaken = false →
            ¬(window.first < position key log (key a) ∧
              position key log (key a) < window.last)) := by
  -- By induction on the windows, for every start.
  induction windows generalizing start with
  | nil =>
    refine iff_of_false List.not_mem_nil ?_
    rintro ⟨-, -, hfirst, hlast, -⟩
    unfold finish at hlast
    omega
  | cons window windows ih =>
    obtain ⟨rfl, hlt, hrest⟩ := h
    have hfinish := le_finish hrest
    have hmem : a ∈ taken log keep (window :: windows) ↔
        window.isTaken = true ∧ (a ∈ between log window.first window.last ∧ keep a = true) ∨
          a ∈ taken log keep windows := by
      unfold taken
      rw [List.flatMap_cons, List.mem_append]
      cases window.isTaken <;> simp
    rw [hmem, ih hrest, mem_between_iff hnodup]
    simp only [finish, List.forall_mem_cons]
    constructor
    -- What the first window takes comes before the windows that are left.
    · rintro (⟨htaken, ⟨hlog, hfirst, hlast⟩, hkeep⟩ | ⟨hlog, hkeep, hfirst, hlast, hwindows⟩)
      · refine ⟨hlog, hkeep, hfirst, by omega, ⟨by omega, by simp [htaken]⟩, ?_⟩
        intro other hother
        obtain ⟨hle, hotherLt⟩ := le_first hrest hother
        exact ⟨by omega, fun _ => by omega⟩
      · exact ⟨hlog, hkeep, by omega, hlast, ⟨by omega, fun _ => by omega⟩, hwindows⟩
    · rintro ⟨hlog, hkeep, hfirst, hlast, ⟨hne, hleft⟩, hwindows⟩
      -- It is in the first window, or after it.
      by_cases hin : position key log (key a) < window.last
      · refine .inl ⟨?_, ⟨hlog, hfirst, hin⟩, hkeep⟩
        by_contra hnot
        exact hleft (by simpa using hnot) ⟨hfirst, hin⟩
      · exact .inr ⟨hlog, hkeep, by omega, hlast, hwindows⟩

end Mio.Library
