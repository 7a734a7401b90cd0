import Mathlib.Data.List.Nodup
import Mathlib.Data.List.Perm.Basic

/-!
# Lists of keyed elements

A collection is a list whose elements have a key. Its loops are of three kinds: one inserts the keys
into a set as it goes and stops at the first element that is not valid or whose key is there already
(`insertDistinct`), one changes or removes the first element that a test finds (`modifyFirst`,
`removeFirst`), and one adds the elements whose key is missing (`addMissing`).
`insertDistinct_eq_some_iff` says what the first kind checks, `modifyFirst_of_find?` and
`removeFirst_eq_some` where the second kind splits the list, and `addMissing_eq_append` what the
third kind adds.
-/

namespace Mio.Library

variable {α κ : Type}

section InsertDistinct

variable [DecidableEq κ]

/-- Insert the key of each element into the set `seen`. The loop stops, with `none`, at an element
that is not valid or whose key is in the set already. -/
def insertDistinct (valid : α → Bool) (key : α → κ) : List α → List κ → Option (List κ)
  | [], seen => some seen
  | a :: rest, seen =>
    if !valid a || seen.contains (key a) then none
    else insertDistinct valid key rest (key a :: seen)

/-- The loop succeeds exactly when every element is valid, the keys are distinct, and none of them
was in the set. It adds them to the set. -/
theorem insertDistinct_eq_some_iff {valid : α → Bool} {key : α → κ} {l : List α}
    {seen seen' : List κ} :
    insertDistinct valid key l seen = some seen' ↔
      (∀ a ∈ l, valid a = true) ∧ (l.map key).Nodup ∧ (∀ a ∈ l, key a ∉ seen) ∧
        (l.map key).reverse ++ seen = seen' := by
  induction l generalizing seen with
  | nil => simp [insertDistinct]
  | cons a l ih =>
    rw [insertDistinct]
    by_cases hstop : (!valid a || seen.contains (key a)) = true
    · rw [if_pos hstop]
      simp only [reduceCtorEq, false_iff]
      rintro ⟨hvalid, -, hfresh, -⟩
      simp [hvalid a (by simp), hfresh a (by simp)] at hstop
    · rw [if_neg hstop, ih]
      simp only [Bool.or_eq_true, Bool.not_eq_true', List.contains_iff_mem, not_or,
        Bool.not_eq_false] at hstop
      obtain ⟨hvalid, hfresh⟩ := hstop
      rw [List.forall_mem_cons, List.forall_mem_cons, List.map_cons, List.nodup_cons,
        List.reverse_cons, List.append_assoc, List.singleton_append]
      simp only [List.mem_cons, not_or, hvalid, hfresh, true_and, not_false_eq_true,
        List.mem_map, not_exists, not_and]
      constructor
      · rintro ⟨h1, h2, h3, h4⟩
        exact ⟨h1, ⟨fun b hb => (h3 b hb).1, h2⟩, fun b hb => (h3 b hb).2, h4⟩
      · rintro ⟨h1, ⟨h2, h3⟩, h4, h5⟩
        exact ⟨h1, h3, fun b hb => ⟨h2 b hb, h4 b hb⟩, h5⟩

/-- From an empty set, the loop succeeds exactly on valid elements with distinct keys. -/
theorem insertDistinct_nil_isSome {valid : α → Bool} {key : α → κ} {l : List α} :
    (insertDistinct valid key l []).isSome = true ↔
      (∀ a ∈ l, valid a = true) ∧ (l.map key).Nodup := by
  rw [Option.isSome_iff_exists]
  simp [insertDistinct_eq_some_iff]

end InsertDistinct

/-- Change the first element that `p` finds. -/
def modifyFirst (p : α → Bool) (f : α → α) : List α → List α
  | [] => []
  | a :: rest => if p a then f a :: rest else a :: modifyFirst p f rest

/-- Where the test finds `a`, the list splits at it, and only it is changed. -/
theorem modifyFirst_of_find? {p : α → Bool} {l : List α} {a : α} (h : l.find? p = some a) :
    ∃ before after, l = before ++ a :: after ∧ (∀ b ∈ before, p b = false) ∧
      ∀ f, modifyFirst p f l = before ++ f a :: after := by
  induction l with
  | nil => simp at h
  | cons b l ih =>
    by_cases hb : p b = true
    · rw [List.find?_cons_of_pos hb] at h
      obtain rfl := Option.some.inj h
      exact ⟨[], l, rfl, by simp, fun f => by simp [modifyFirst, hb]⟩
    · rw [List.find?_cons_of_neg hb] at h
      obtain ⟨before, after, rfl, hbefore, hmodify⟩ := ih h
      refine ⟨b :: before, after, rfl, ?_, fun f => by simp [modifyFirst, hb, hmodify]⟩
      rintro c hc
      rcases List.mem_cons.mp hc with rfl | hc
      · exact Bool.eq_false_iff.mpr hb
      · exact hbefore c hc

/-- A change that keeps the key keeps the keys of the list. -/
theorem map_modifyFirst {p : α → Bool} {f : α → α} {key : α → κ} (hkey : ∀ a, key (f a) = key a)
    (l : List α) : (modifyFirst p f l).map key = l.map key := by
  induction l with
  | nil => rfl
  | cons a l ih =>
    rw [modifyFirst]
    split
    · simp [hkey]
    · simp [ih]

/-- A change that leaves every element it could find leaves the list. -/
theorem modifyFirst_eq_self {p : α → Bool} {f : α → α} {l : List α}
    (h : ∀ a ∈ l, p a = true → f a = a) : modifyFirst p f l = l := by
  induction l with
  | nil => rfl
  | cons a l ih =>
    rw [modifyFirst]
    split
    · rw [h a List.mem_cons_self ‹_›]
    · rw [ih fun b hb => h b (List.mem_cons_of_mem _ hb)]

/-- A change that the test does not see changes the first of those that pass it. -/
theorem filter_modifyFirst {p : α → Bool} {f : α → α} (hf : ∀ a, p (f a) = p a) {l : List α} {a : α}
    {rest : List α} (h : l.filter p = a :: rest) : (modifyFirst p f l).filter p = f a :: rest := by
  induction l with
  | nil => simp at h
  | cons b l ih =>
    rw [modifyFirst]
    by_cases hb : p b = true
    · obtain ⟨rfl, rfl⟩ : b = a ∧ l.filter p = rest := by simpa [List.filter_cons, hb] using h
      simp [hb, hf]
    · have hl : l.filter p = a :: rest := by simpa [List.filter_cons, hb] using h
      simp [hb, ih hl]

/-- The first element that `p` finds, and the list without it. -/
def removeFirst (p : α → Bool) : List α → Option (α × List α)
  | [] => none
  | a :: rest =>
    if p a then some (a, rest)
    else (removeFirst p rest).map fun (found, rest') => (found, a :: rest')

/-- What is removed is an element that the test finds, and the list is what stands around it. -/
theorem removeFirst_eq_some {p : α → Bool} {l l' : List α} {a : α}
    (h : removeFirst p l = some (a, l')) :
    p a = true ∧ ∃ before after, l = before ++ a :: after ∧ l' = before ++ after := by
  induction l generalizing l' with
  | nil => simp [removeFirst] at h
  | cons b l ih =>
    rw [removeFirst] at h
    split at h
    · obtain ⟨rfl, rfl⟩ := Prod.mk.inj (Option.some.inj h)
      exact ⟨‹_›, [], l, rfl, rfl⟩
    · obtain ⟨⟨c, rest⟩, hrest, hc⟩ := Option.map_eq_some_iff.mp h
      obtain ⟨rfl, rfl⟩ := Prod.mk.inj hc
      obtain ⟨hp, before, after, rfl, rfl⟩ := ih hrest
      exact ⟨hp, b :: before, after, rfl, rfl⟩

/-- With distinct keys, the element with a given key is the one that a search for the key finds. -/
theorem find?_key [BEq κ] [LawfulBEq κ] {key : α → κ} {l : List α} (hl : (l.map key).Nodup)
    {a : α} (ha : a ∈ l) : l.find? (fun b => key b == key a) = some a := by
  induction l with
  | nil => simp at ha
  | cons b l ih =>
    rw [List.map_cons, List.nodup_cons] at hl
    rcases List.mem_cons.mp ha with rfl | ha
    · simp
    · have hne : key b ≠ key a := fun h => hl.1 (h ▸ List.mem_map_of_mem ha)
      rw [List.find?_cons_of_neg (by simpa using hne)]
      exact ih hl.2 ha

/-! ## Cursors -/

section Cursor

variable {key : α → κ} {l : List α} {cursor : κ} {position : ℕ}

/-- A reader is past the first `position` elements, and the key of the last of them is its cursor.
-/
def CursorAt (key : α → κ) (l : List α) (cursor : κ) (position : ℕ) : Prop :=
  ∃ i a, position = i + 1 ∧ l[i]? = some a ∧ key a = cursor

/-- With distinct keys, the key of an element is found at its index. -/
theorem findIdx?_key [BEq κ] [LawfulBEq κ] (hl : (l.map key).Nodup) {i : ℕ} {a : α}
    (ha : l[i]? = some a) : l.findIdx? (fun b => key b == key a) = some i := by
  obtain ⟨hi, rfl⟩ := List.getElem?_eq_some_iff.mp ha
  refine List.findIdx?_eq_some_iff_getElem.mpr ⟨hi, by simp, fun j hj => ?_⟩
  have hne : l[j] ≠ l[i] ∧ key l[j] ≠ key l[i] := by
    have hkeys := List.pairwise_iff_getElem.mp hl j i (by simp; omega) (by simpa using hi) hj
    rw [List.getElem_map, List.getElem_map] at hkeys
    exact ⟨fun h => hkeys (by rw [h]), hkeys⟩
  simpa using hne.2

/-- A cursor keeps its position when elements are added at the end. -/
theorem CursorAt.mono (h : CursorAt key l cursor position) {l' : List α} (hpre : l <+: l') :
    CursorAt key l' cursor position := by
  obtain ⟨i, a, hi, ha, hkey⟩ := h
  obtain ⟨added, rfl⟩ := hpre
  refine ⟨i, a, hi, ?_, hkey⟩
  obtain ⟨hlt, -⟩ := List.getElem?_eq_some_iff.mp ha
  rw [List.getElem?_append_left hlt, ha]

/-- The last element that is read gives the next cursor. -/
theorem cursorAt_getLast? {limit : ℕ} {a : α}
    (ha : ((l.drop position).take limit).getLast? = some a) :
    CursorAt key l (key a) (position + ((l.drop position).take limit).length) := by
  have hne : (l.drop position).take limit ≠ [] := by
    intro hnil
    simp [hnil] at ha
  have hpos := List.length_pos_of_ne_nil hne
  rw [List.getLast?_eq_getElem?] at ha
  refine ⟨position + (((l.drop position).take limit).length - 1), a, by omega, ?_, rfl⟩
  rw [List.getElem?_take, List.getElem?_drop] at ha
  split at ha
  · exact ha
  · cases ha

end Cursor

/-! ## Adding what is missing -/

section AddMissing

variable [BEq κ] {key : α → κ} {new l : List α}

/-- Add those of the new elements whose key is not there yet. Returns whether there were any. -/
def addMissing (key : α → κ) : List α → List α → List α × Bool
  | [], l => (l, false)
  | a :: new, l =>
    if !l.any fun existing => key existing == key a then
      ((addMissing key new (l ++ [a])).1, true)
    else addMissing key new l

/-- Where nothing was added, the list is as before. -/
theorem addMissing_of_false (h : (addMissing key new l).2 = false) :
    (addMissing key new l).1 = l := by
  induction new with
  | nil => rfl
  | cons a new ih =>
    rw [addMissing] at h ⊢
    split at h
    · simp at h
    · rw [if_neg ‹_›]
      exact ih h

variable [LawfulBEq κ]

/-- Where every key is there, nothing is added. -/
theorem addMissing_of_all (h : ∀ a ∈ new, key a ∈ l.map key) : addMissing key new l =
    (l, false) := by
  induction new with
  | nil => rfl
  | cons a new ih =>
    have ha : l.any (fun existing => key existing == key a) = true := by
      simpa using h a List.mem_cons_self
    rw [addMissing, ha]
    exact ih fun b hb => h b (List.mem_cons_of_mem _ hb)

/-- What is added are new elements whose key was not there. -/
theorem addMissing_eq_append (key : α → κ) (new l : List α) :
    ∃ added, (addMissing key new l).1 = l ++ added ∧ ∀ a ∈ added, a ∈ new ∧ key a ∉ l.map key := by
  induction new generalizing l with
  | nil => exact ⟨[], by simp [addMissing]⟩
  | cons a new ih =>
    rw [addMissing]
    split
    · rename_i ha
      obtain ⟨added, hadded, hnew⟩ := ih (l ++ [a])
      refine ⟨a :: added, by simp [hadded], ?_⟩
      intro b hb
      rw [List.mem_cons] at hb
      rcases hb with rfl | hb
      · exact ⟨List.mem_cons_self, by simpa using ha⟩
      · obtain ⟨hmem, hfresh⟩ := hnew b hb
        refine ⟨List.mem_cons_of_mem _ hmem, fun h => hfresh ?_⟩
        rw [List.map_append]
        exact List.mem_append_left _ h
    · obtain ⟨added, hadded, hnew⟩ := ih l
      exact ⟨added, hadded, fun b hb => ⟨List.mem_cons_of_mem _ (hnew b hb).1, (hnew b hb).2⟩⟩

/-- Every key is there afterwards. -/
theorem key_mem_addMissing : ∀ a ∈ new, key a ∈ (addMissing key new l).1.map key := by
  induction new generalizing l with
  | nil => simp
  | cons a new ih =>
    intro b hb
    rw [addMissing]
    rw [List.mem_cons] at hb
    split
    · rcases hb with rfl | hb
      · obtain ⟨added, hadded, -⟩ := addMissing_eq_append key new (l ++ [b])
        simp [hadded]
      · exact ih b hb
    · rename_i ha
      rcases hb with rfl | hb
      · obtain ⟨added, hadded, -⟩ := addMissing_eq_append key new l
        have hmem : key b ∈ l.map key := by simpa using ha
        rw [hadded, List.map_append]
        exact List.mem_append_left _ hmem
      · exact ih b hb

end AddMissing

/-! ## The first of the smallest -/

/-- The first of the smallest elements (`Iterator::min_by`). -/
def minBy (less : α → α → Bool) : List α → Option α
  | [] => none
  | a :: rest => some (rest.foldl (fun smallest b => if less b smallest then b else smallest) a)

/-- The least element is one of the list. -/
theorem minBy_mem {less : α → α → Bool} {l : List α} {a : α}
    (h : minBy less l = some a) : a ∈ l := by
  cases l with
  | nil => cases h
  | cons first rest =>
    obtain rfl := Option.some.inj h
    clear h
    induction rest generalizing first with
    | nil => exact List.mem_singleton.mpr rfl
    | cons other rest ih =>
      rw [List.foldl_cons]
      split
      · exact List.mem_cons_of_mem _ (ih other)
      · have hmem := ih first
        rw [List.mem_cons] at hmem
        rcases hmem with hfirst | hrest
        · exact List.mem_cons.mpr (.inl hfirst)
        · exact List.mem_cons_of_mem _ (List.mem_cons_of_mem _ hrest)

end Mio.Library
