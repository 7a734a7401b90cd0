import Mathlib.Algebra.GroupWithZero.Nat
import Mathlib.Algebra.Order.BigOperators.Group.List
import Mathlib.Data.List.Basic

/-!
# Paths of Windows

A path is a text. Both separators part it, and what stands between them says where to go from a
directory: nowhere, up, or down to a name. A path that starts with a separator or with a drive says
itself where it hangs, and what follows is not read here. `Location.join` goes where a path says
from a directory. A path of names only stays strictly inside (`join_map_normal`).
-/

namespace Mio.Library

/-- Whether the character separates the parts of a path. -/
def isSeparator (c : Char) : Bool := c == '/' || c == '\\'

/-- One component of a path (`std::path::Component`). A prefix and a root are `anchored`. -/
inductive Component where
  | anchored
  | current
  | parent
  | normal (name : List Char)
  deriving DecidableEq

/-- A path that starts with a drive, such as `C:`. -/
def startsWithDrive : List Char → Bool
  | letter :: ':' :: _ => letter.isAlpha
  | _ => false

/-- What a part says that comes after another one. An empty part and `.` say nothing. -/
def laterComponent (part : List Char) : Option Component :=
  if part = [] ∨ part = ['.'] then none
  else if part = ['.', '.'] then some .parent
  else some (.normal part)

/-- The components of a path (`Path::components`). After a drive or a root they are left out. -/
def components (path : List Char) : List Component :=
  match path.splitOnP isSeparator with
  | [] => []
  | first :: rest =>
    if path = [] then []
    else if first = [] ∨ startsWithDrive path = true then [.anchored]
    else if first = ['.'] then .current :: rest.filterMap laterComponent
    else (first :: rest).filterMap laterComponent

/-- A directory: what it hangs at, and the names on the way down to it. -/
structure Location (α : Type) where
  anchor : α
  names : List (List Char)

namespace Location

variable {α : Type}

/-- One component further. One that is `anchored` leads away. -/
def step (l : Location α) : Component → Option (Location α)
  | .anchored => none
  | .current => some l
  | .parent => some { l with names := l.names.dropLast }
  | .normal name => some { l with names := l.names ++ [name] }

/-- Walks a path from a location. -/
def join (l : Location α) (path : List Component) : Option (Location α) := path.foldlM step l

/-- Below the root, and not the root itself. -/
def StrictlyInside (root l : Location α) : Prop :=
  l.anchor = root.anchor ∧ ∃ below, below ≠ [] ∧ l.names = root.names ++ below

/-- A path of names goes down to them. -/
theorem join_map_normal (l : Location α) (names : List (List Char)) :
    l.join (names.map .normal) = some { l with names := l.names ++ names } := by
  induction names generalizing l with
  | nil => simp [join]
  | cons name names ih =>
    have hstep : l.join ((name :: names).map .normal) =
        ({ l with names := l.names ++ [name] } : Location α).join (names.map .normal) := rfl
    rw [hstep, ih]
    simp

/-- A path of at least one name leads strictly inside. -/
theorem join_map_normal_inside (root : Location α) {names : List (List Char)} (h : names ≠ []) :
    ∃ l, root.join (names.map .normal) = some l ∧ root.StrictlyInside l :=
  ⟨_, join_map_normal root names, rfl, names, h, rfl⟩

end Location

/-! ## Parts -/

section Parts

variable {α : Type*} {p : α → Bool}

/-- No part has a separator. -/
theorem not_of_mem_splitOnP {l part : List α} (h : part ∈ l.splitOnP p) :
    ∀ a ∈ part, p a = false := by
  induction l generalizing part with
  | nil =>
    obtain rfl : part = [] := by simpa [List.splitOnP_nil] using h
    simp
  | cons a l ih =>
    rw [List.splitOnP_cons_eq_if_modifyHead] at h
    split at h
    · obtain rfl | h := List.mem_cons.mp h
      · simp
      · exact ih h
    · rename_i ha
      obtain ⟨first, rest, heq⟩ := List.exists_cons_of_ne_nil (List.splitOnP_ne_nil p l)
      rw [heq, List.modifyHead_cons, List.mem_cons] at h
      obtain rfl | h := h
      · have hfirst := ih (heq ▸ List.mem_cons_self)
        exact List.forall_mem_cons.mpr ⟨Bool.eq_false_iff.mpr ha, hfirst⟩
      · exact ih (heq ▸ List.mem_cons_of_mem first h)

/-- Parts that are put together with a separator are those of the whole. -/
theorem splitOnP_intercalate {sep : α} (hsep : p sep = true) {parts : List (List α)}
    (hne : parts ≠ []) (h : ∀ part ∈ parts, ∀ a ∈ part, p a = false) :
    ([sep].intercalate parts).splitOnP p = parts := by
  induction parts with
  | nil => exact absurd rfl hne
  | cons part parts ih =>
    rw [List.forall_mem_cons] at h
    cases parts with
    | nil =>
      rw [List.intercalate_singleton]
      exact List.splitOnP_eq_singleton h.1
    | cons next rest =>
      have hcons : [sep].intercalate (part :: next :: rest) =
          part ++ sep :: [sep].intercalate (next :: rest) := by
        simp [List.intercalate_cons_cons]
      rw [hcons, List.splitOnP_append_cons_of_forall_mem h.1 sep hsep, ih (by simp) h.2]

/-- The parts of a list weigh as much as the list, where a separator weighs one. -/
theorem sum_splitOnP {weight : α → ℕ} (hweight : ∀ a, p a = true → weight a = 1) (l : List α) :
    ((l.splitOnP p).map fun part => (part.map weight).sum + 1).sum = (l.map weight).sum + 1 := by
  induction l with
  | nil => simp [List.splitOnP_nil]
  | cons a l ih =>
    rw [List.splitOnP_cons_eq_if_modifyHead]
    split
    · rename_i ha
      have hone := hweight a ha
      simp only [List.map_cons, List.sum_cons, List.map_nil, List.sum_nil]
      omega
    · obtain ⟨first, rest, heq⟩ := List.exists_cons_of_ne_nil (List.splitOnP_ne_nil p l)
      rw [heq] at ih ⊢
      simp only [List.modifyHead_cons, List.map_cons, List.sum_cons] at ih ⊢
      omega

/-- The weight of a joined list, by that of its parts. -/
theorem sum_intercalate {weight : α → ℕ} {sep : α} (hweight : weight sep = 1)
    {parts : List (List α)} (hne : parts ≠ []) :
    (([sep].intercalate parts).map weight).sum + 1 =
      (parts.map fun part => (part.map weight).sum + 1).sum := by
  induction parts with
  | nil => exact absurd rfl hne
  | cons part parts ih =>
    cases parts with
    | nil => simp
    | cons next rest =>
      have hcons : [sep].intercalate (part :: next :: rest) =
          part ++ sep :: [sep].intercalate (next :: rest) := by
        simp [List.intercalate_cons_cons]
      have hrest := ih (by simp)
      rw [hcons, List.map_append, List.sum_append, List.map_cons, List.sum_cons, List.map_cons,
        List.sum_cons]
      omega

end Parts

/-! ## The components of a path -/

/-- The parts that count after the first one. -/
def namedParts (parts : List (List Char)) : List (List Char) :=
  parts.filter fun part => part != [] && part != ['.']

/-- Parts that never go up are names. -/
theorem filterMap_laterComponent {parts : List (List Char)}
    (h : ∀ part ∈ parts, part ≠ ['.', '.']) :
    parts.filterMap laterComponent = (namedParts parts).map .normal := by
  induction parts with
  | nil => rfl
  | cons part parts ih =>
    rw [List.forall_mem_cons] at h
    by_cases hnothing : part = [] ∨ part = ['.']
    · have hpart : laterComponent part = none := by simp [laterComponent, hnothing]
      have hfilter : namedParts (part :: parts) = namedParts parts := by
        rcases hnothing with rfl | rfl <;> rfl
      rw [List.filterMap_cons_none hpart, hfilter, ih h.2]
    · have hpart : laterComponent part = some (.normal part) := by
        simp [laterComponent, hnothing, h.1]
      have hfilter : namedParts (part :: parts) = part :: namedParts parts := by
        rw [namedParts, List.filter_cons_of_pos (by simpa [not_or] using hnothing)]
        rfl
      rw [List.filterMap_cons_some hpart, hfilter, List.map_cons, ih h.2]

/-- Different names are different paths. -/
theorem map_normal_injective : Function.Injective (List.map Component.normal) :=
  List.map_injective_iff.mpr fun _ _ h => Component.normal.inj h

/-- Only parts that never go up are names and nothing else. -/
theorem namedParts_of_filterMap {parts names : List (List Char)}
    (h : parts.filterMap laterComponent = names.map .normal) : namedParts parts = names := by
  have hup : ∀ part ∈ parts, part ≠ ['.', '.'] := by
    rintro part hpart rfl
    have hparent : Component.parent ∈ parts.filterMap laterComponent :=
      List.mem_filterMap.mpr ⟨_, hpart, rfl⟩
    rw [h] at hparent
    simp at hparent
  rw [filterMap_laterComponent hup] at h
  exact map_normal_injective h

/-- The first part of a path with a drive has a colon. -/
theorem colon_mem_of_startsWithDrive {path first : List Char} {rest : List (List Char)}
    (hdrive : startsWithDrive path = true) (h : path.splitOnP isSeparator = first :: rest) :
    ':' ∈ first := by
  unfold startsWithDrive at hdrive
  split at hdrive
  · rename_i letter tail
    have hletter : isSeparator letter = false := by
      by_contra hsep
      have hcases : letter = '/' ∨ letter = '\\' := by
        simpa [isSeparator, or_iff_not_imp_left] using hsep
      rcases hcases with rfl | rfl <;> cases hdrive
    have hcolon : isSeparator ':' = false := rfl
    rw [List.splitOnP_cons_eq_if_modifyHead, if_neg (by simp [hletter]),
      List.splitOnP_cons_eq_if_modifyHead, if_neg (by simp [hcolon])] at h
    obtain ⟨next, others, heq⟩ :=
      List.exists_cons_of_ne_nil (List.splitOnP_ne_nil isSeparator tail)
    rw [heq, List.modifyHead_cons, List.modifyHead_cons] at h
    obtain ⟨rfl, -⟩ := List.cons.inj h
    simp
  · cases hdrive

end Mio.Library
