import Mio.Broker.CommandPlan
import Mio.Library.TextSize
import Mio.Library.WindowsPath

/-!
# The relative paths of a workspace

`workspace_relative_path` of `crates/moe-workspace-broker/src/lib.rs`, which checks the path of a
file, and `workspace_relative_directory` of the command broker, which checks where a command runs.
Each has a `valid_path_segment` of its own, with the same text. A path that either accepts is one of
names only, so it stays strictly inside whatever directory it is joined to. The root itself is a
directory that commands may run in, and no path of a file.
-/

namespace Mio.Broker

open Library

/-- The loop over the components of a path. An absolute path has a component that is `anchored`, and
ends here if not before. -/
def relativeSegments : List Component → ℕ → List (List Char) → Option (List (List Char))
  | [], _, relative => some relative
  | .normal segment :: rest, count, relative =>
    if !validPathSegment segment then none
    else if maximumRelativePathComponents < count + 1 then none
    else relativeSegments rest (count + 1) (relative ++ [segment])
  | _ :: _, _, _ => none

/-- `workspace_relative_path`. -/
def workspaceRelativePath (path : String) : Option String :=
  if path.isEmpty || maximumRelativePathBytes < path.utf8ByteSize then none
  else
    match relativeSegments (components path.toList) 0 [] with
    | none => none
    | some relative =>
      if relative.isEmpty then none else some (String.ofList (['\\'].intercalate relative))

/-- What `validPathSegment` says of a name: it is one part of a path and goes nowhere else, it names
no stream, Windows keeps all of it, and it is no device. -/
structure PlainName (name : List Char) : Prop where
  one_part : name ≠ [] ∧ ∀ c ∈ name, isSeparator c = false
  not_dots : name ≠ ['.'] ∧ name ≠ ['.', '.']
  no_stream : ':' ∉ name ∧ '\x00' ∉ name
  kept : name.getLast? ≠ some ' ' ∧ name.getLast? ≠ some '.'
  no_device : ∀ device ∈ windowsDeviceNames,
    device.toList ≠ (name.takeWhile (· != '.')).map asciiUppercase
  no_numbered_device : ∀ number ∈ windowsDeviceNumbers,
    (name.takeWhile (· != '.')).map asciiUppercase ≠ ['C', 'O', 'M', number] ∧
      (name.takeWhile (· != '.')).map asciiUppercase ≠ ['L', 'P', 'T', number]

/-- What is accepted for a path has names for components, those of the path, and stays strictly
inside any root. -/
def Confined (path result : String) : Prop :=
  ∃ names : List (List Char), names ≠ [] ∧ (∀ name ∈ names, PlainName name) ∧
    components path.toList = names.map .normal ∧ components result.toList = names.map .normal ∧
      ∀ (α : Type) (root : Location α),
        ∃ l, root.join (components result.toList) = some l ∧ root.StrictlyInside l

/-! ## Segments -/

/-- A name that passes the check is one that Windows takes as it stands. -/
theorem plainName_of_valid {name : List Char} (hparts : ∀ c ∈ name, isSeparator c = false)
    (h : validPathSegment name = true) : PlainName name := by
  unfold validPathSegment at h
  split at h
  · cases h
  · rename_i hplain
    simp only [Bool.or_eq_true, List.isEmpty_iff, beq_iff_eq, List.contains_iff_mem, not_or]
      at hplain
    obtain ⟨⟨⟨⟨hnil, hspace⟩, hdot⟩, hcolon⟩, hnul⟩ := hplain
    simp only [Bool.and_eq_true, Bool.not_eq_true', List.any_eq_false, beq_iff_eq,
      windowsNumberedDeviceName, Bool.or_eq_true, not_or] at h
    exact {
      one_part := ⟨hnil, hparts⟩
      not_dots := by
        constructor
        · rintro rfl
          exact hdot rfl
        · rintro rfl
          exact hdot rfl
      no_stream := ⟨hcolon, hnul⟩
      kept := ⟨hspace, hdot⟩
      no_device := h.1
      no_numbered_device := h.2 }

/-- The loop takes exactly names that pass the check, as long as there are not too many. -/
theorem relativeSegments_eq_some {path : List Component} {count : ℕ}
    {relative names : List (List Char)} :
    relativeSegments path count relative = some names ↔
      ∃ more : List (List Char), path = more.map .normal ∧ names = relative ++ more ∧
        (∀ name ∈ more, validPathSegment name = true) ∧
          (more ≠ [] → count + more.length ≤ maximumRelativePathComponents) := by
  -- By induction on the components, for any number of them that was read before.
  induction path generalizing count relative with
  | nil =>
    constructor
    · intro h
      obtain rfl := Option.some.inj h
      exact ⟨[], by simp⟩
    · rintro ⟨more, hpath, rfl, -, -⟩
      obtain rfl : more = [] := by simpa using hpath.symm
      simp [relativeSegments]
  | cons c path ih =>
    cases c with
    | normal segment =>
      unfold relativeSegments
      constructor
      · intro h
        split at h
        · cases h
        · rename_i hvalid
          split at h
          · cases h
          · rename_i hcount
            obtain ⟨more, rfl, rfl, hall, hlength⟩ := ih.mp h
            refine ⟨segment :: more, rfl, by simp, ?_, fun _ => ?_⟩
            · exact List.forall_mem_cons.mpr ⟨by simpa using hvalid, hall⟩
            · rw [List.length_cons]
              -- The last name was counted when it was read, the ones before with the rest of the
              -- path.
              by_cases hnil : more = []
              · subst hnil
                simp only [List.length_nil]
                omega
              · have hle := hlength hnil
                omega
      · rintro ⟨more, hpath, rfl, hall, hlength⟩
        cases more with
        | nil => cases hpath
        | cons name more =>
          obtain ⟨hname, hrest⟩ := List.cons.inj hpath
          obtain rfl := Component.normal.inj hname
          rw [List.forall_mem_cons] at hall
          have hle := hlength (by simp)
          rw [List.length_cons] at hle
          rw [if_neg (by simp [hall.1]), if_neg (by omega)]
          exact ih.mpr ⟨more, hrest, by simp, hall.2, fun _ => by omega⟩
    -- Any other component than a name is refused.
    | _ =>
      constructor
      · intro h
        cases h
      · rintro ⟨more, hpath, -⟩
        cases more <;> cases hpath

/-! ## What is accepted -/

/-- The names of a path that the check of segments takes, and how many there may be. -/
structure AcceptedNames (path : String) (names : List (List Char)) : Prop where
  nonempty : names ≠ []
  components : components path.toList = names.map .normal
  valid : ∀ name ∈ names, validPathSegment name = true
  count : names.length ≤ maximumRelativePathComponents
  size : path.utf8ByteSize ≤ maximumRelativePathBytes

/-- A path is accepted exactly where it has such names, and it is these again. -/
theorem workspaceRelativePath_eq_some {path result : String} :
    workspaceRelativePath path = some result ↔
      ∃ names, AcceptedNames path names ∧ result = .ofList (['\\'].intercalate names) := by
  unfold workspaceRelativePath
  constructor
  · intro h
    split at h
    · cases h
    · rename_i hsize
      simp only [Bool.or_eq_true, decide_eq_true_eq, not_or, not_lt] at hsize
      split at h
      · cases h
      · rename_i names hnames
        split at h
        · cases h
        · rename_i hne
          rw [List.isEmpty_iff] at hne
          obtain ⟨more, hcomponents, hmore, hvalid, hcount⟩ := relativeSegments_eq_some.mp hnames
          rw [List.nil_append] at hmore
          subst hmore
          have hlength := hcount hne
          exact ⟨names, ⟨hne, hcomponents, hvalid, by omega, hsize.2⟩, (Option.some.inj h).symm⟩
  · rintro ⟨names, hnames, rfl⟩
    -- The names are read as they were written, and none of the checks refuses them.
    have hloop : relativeSegments (Library.components path.toList) 0 [] = some names :=
      relativeSegments_eq_some.mpr
        ⟨names, hnames.components, rfl, hnames.valid, fun _ => by simpa using hnames.count⟩
    have hempty : path.isEmpty = false := by
      by_contra h
      obtain rfl : path = "" := by simpa using h
      have hcomponents := hnames.components
      have hnil : names = [] := by simpa [Library.components] using hcomponents.symm
      exact hnames.nonempty hnil
    have hne : names.isEmpty = false := by simpa using hnames.nonempty
    have hsize := hnames.size
    rw [if_neg (by simpa [hempty] using hsize), hloop]
    simp [hne]

/-- The command broker's components are the path's, as long as the check of segments takes them. A
drive and a step up are names for it, which the check refuses. -/
theorem pathComponents_eq_some_iff {path : List Char} {names : List (List Char)} (hne : path ≠ [])
    (hvalid : ∀ name ∈ names, validPathSegment name = true) :
    pathComponents path = some names ↔
      names ≠ [] ∧ components path = names.map .normal := by
  obtain ⟨first, rest, hparts⟩ :=
    List.exists_cons_of_ne_nil (List.splitOnP_ne_nil isSeparator path)
  have hsegments : pathSegments path = first :: rest := hparts
  unfold pathComponents components
  rw [hsegments, hparts]
  simp only [hne, if_false]
  constructor
  · intro h
    split at h
    · cases h
    · rename_i hfirst
      simp only [Bool.or_eq_true, beq_iff_eq, not_or] at hfirst
      obtain rfl := Option.some.inj h
      -- The first part is a valid name, so it has no colon, and the path starts with no drive.
      have hfirstValid := hvalid first List.mem_cons_self
      have hplain := plainName_of_valid
        (not_of_mem_splitOnP (hparts ▸ List.mem_cons_self)) hfirstValid
      have hdrive : startsWithDrive path ≠ true := fun hdrive =>
        hplain.no_stream.1 (colon_mem_of_startsWithDrive hdrive hparts)
      -- No part goes up, as `..` would have been a name, and an invalid one.
      have hup : ∀ part ∈ first :: rest, part ≠ ['.', '.'] := by
        rintro part hpart rfl
        obtain hpart | hpart := List.mem_cons.mp hpart
        · exact hplain.not_dots.2 hpart.symm
        · have hmem : ['.', '.'] ∈ namedParts rest := List.mem_filter.mpr ⟨hpart, by decide⟩
          have hdots := hvalid _ (List.mem_cons_of_mem _ hmem)
          exact absurd hdots (by decide)
      refine ⟨by simp, ?_⟩
      rw [if_neg (by simp [hfirst.1, hdrive]), if_neg hfirst.2, filterMap_laterComponent hup,
        namedParts, List.filter_cons_of_pos (by simp [hfirst])]
  -- The same components are read from the parts in the order of the platform's own reading.
  · rintro ⟨hnames, h⟩
    split at h
    · cases names <;> cases h
    · rename_i hfirst
      rw [not_or] at hfirst
      split at h
      · cases names <;> cases h
      · rename_i hdot
        have hnamed := namedParts_of_filterMap h
        rw [namedParts, List.filter_cons_of_pos (by simp [hfirst.1, hdot])] at hnamed
        rw [if_neg (by simp [hfirst.1, hdot]), hnamed]

/-- The same holds of a working directory other than the root. -/
theorem workspaceRelativeDirectory_eq_some {path result : String}
    (hroot : isCurrentDirectory path = false) :
    workspaceRelativeDirectory path = some result ↔
      ∃ names, AcceptedNames path names ∧ result = .ofList (['\\'].intercalate names) := by
  unfold workspaceRelativeDirectory
  rw [if_neg (by simp [hroot])]
  -- The source makes its four checks in this order.
  constructor
  · intro h
    split at h
    · cases h
    · rename_i hsize
      simp only [Bool.or_eq_true, String.isEmpty_iff, decide_eq_true_eq, not_or, not_lt] at hsize
      split at h
      · cases h
      · rename_i names hnames
        split at h
        · rename_i hall
          simp only [Bool.and_eq_true, List.all_eq_true, decide_eq_true_eq] at hall
          have hne : path.toList ≠ [] := by simpa using hsize.1
          obtain ⟨hnonempty, hcomponents⟩ :=
            (pathComponents_eq_some_iff hne hall.1).mp hnames
          exact ⟨names, ⟨hnonempty, hcomponents, hall.1, hall.2, hsize.2⟩,
            (Option.some.inj h).symm⟩
        · cases h
  · rintro ⟨names, hnames, rfl⟩
    -- The path is not empty, as it has names.
    have hne : path.toList ≠ [] := by
      intro hnil
      have hcomponents := hnames.components
      rw [hnil] at hcomponents
      have hnil : names = [] := by simpa [Library.components] using hcomponents.symm
      exact hnames.nonempty hnil
    have hempty : path.isEmpty = false := by simpa using hne
    have hsize := hnames.size
    have hparts := (pathComponents_eq_some_iff hne hnames.valid).mpr
      ⟨hnames.nonempty, hnames.components⟩
    have hall : (names.all validPathSegment &&
        decide (names.length ≤ maximumRelativePathComponents)) = true := by
      rw [Bool.and_eq_true, List.all_eq_true, decide_eq_true_eq]
      exact ⟨hnames.valid, hnames.count⟩
    rw [if_neg (by simpa [hempty] using hsize), hparts]
    simp only [hall, if_true]

/-- The root itself is the path that goes nowhere. -/
theorem isCurrentDirectory_iff {path : String} :
    isCurrentDirectory path = true ↔ components path.toList = [.current] := by
  obtain ⟨first, rest, hparts⟩ :=
    List.exists_cons_of_ne_nil (List.splitOnP_ne_nil isSeparator path.toList)
  have hsegments : pathSegments path.toList = first :: rest := hparts
  -- A part after the first is dropped exactly when it is empty or `.`.
  have hlater : ∀ part, laterComponent part = none ↔ part = [] ∨ part = ['.'] := by
    intro part
    unfold laterComponent
    split_ifs with hnothing hup <;> simp [hnothing]
  have hnever : ∀ part, laterComponent part ≠ some .current := by
    intro part
    unfold laterComponent
    split_ifs <;> simp
  unfold isCurrentDirectory components
  rw [hsegments, hparts]
  simp only [Bool.and_eq_true, beq_iff_eq, List.all_eq_true, Bool.or_eq_true]
  constructor
  · rintro ⟨rfl, hrest⟩
    have hne : path.toList ≠ [] := by
      intro hnil
      rw [hnil, List.splitOnP_nil] at hparts
      cases hparts
    -- A drive would put a colon into the first part, which is `.`.
    have hdrive : startsWithDrive path.toList ≠ true := by
      intro hdrive
      have hcolon := colon_mem_of_startsWithDrive hdrive hparts
      simp at hcolon
    have hnil : rest.filterMap laterComponent = [] := by
      rw [List.filterMap_eq_nil_iff]
      exact fun part hpart => (hlater part).mpr (hrest part hpart)
    rw [if_neg hne, if_neg (by simp [hdrive]), if_pos rfl, hnil]
  · intro h
    split at h
    · cases h
    · split at h
      · cases h
      · split at h
        · rename_i hfirst
          refine ⟨hfirst, fun part hpart => ?_⟩
          have hnil := (List.cons.inj h).2
          rw [List.filterMap_eq_nil_iff] at hnil
          exact (hlater part).mp (hnil part hpart)
        -- If the first part were not `.`, the current directory would stand among the later parts.
        · have hmem : Component.current ∈ (first :: rest).filterMap laterComponent := by
            rw [h]
            exact List.mem_singleton_self _
          obtain ⟨part, -, hpart⟩ := List.mem_filterMap.mp hmem
          exact absurd hpart (hnever part)

/-- On every path but the root itself, the two brokers accept the same. -/
theorem workspaceRelativeDirectory_eq {path : String} (hroot : isCurrentDirectory path = false) :
    workspaceRelativeDirectory path = workspaceRelativePath path := by
  apply Option.ext
  intro result
  rw [workspaceRelativeDirectory_eq_some hroot, workspaceRelativePath_eq_some]

/-! ## What is accepted stays inside -/

namespace AcceptedNames

variable {path : String} {names : List (List Char)}

/-- An accepted path is not empty. -/
theorem toList_ne_nil (h : AcceptedNames path names) : path.toList ≠ [] := by
  intro hnil
  have hcomponents := h.components
  rw [hnil] at hcomponents
  have hnames : names = [] := by simpa [Library.components] using hcomponents.symm
  exact h.nonempty hnames

/-- The names are parts of the path. -/
theorem sublist (h : AcceptedNames path names) :
    names.Sublist (path.toList.splitOnP isSeparator) := by
  have hparts := (pathComponents_eq_some_iff h.toList_ne_nil h.valid).mpr
    ⟨h.nonempty, h.components⟩
  unfold pathComponents pathSegments at hparts
  split at hparts
  · cases hparts
  · rename_i first rest hsegments
    split at hparts
    · cases hparts
    · obtain rfl := Option.some.inj hparts
      have hwhole : path.toList.splitOnP isSeparator = first :: rest := hsegments
      rw [hwhole]
      exact List.filter_sublist.cons_cons first

/-- Each of its names is one that Windows takes as it stands. -/
theorem plain (h : AcceptedNames path names) {name : List Char} (hname : name ∈ names) :
    PlainName name :=
  plainName_of_valid (not_of_mem_splitOnP (h.sublist.subset hname)) (h.valid name hname)

/-- The names that are joined are the components of the whole. -/
theorem components_intercalate (h : AcceptedNames path names) :
    Library.components (['\\'].intercalate names) = names.map .normal := by
  have hparts : (['\\'].intercalate names).splitOnP isSeparator = names :=
    splitOnP_intercalate rfl h.nonempty fun name hname => (h.plain hname).one_part.2
  have hvalid : pathComponents (['\\'].intercalate names) = some names := by
    have hsegments : pathSegments (['\\'].intercalate names) = names := hparts
    obtain ⟨first, rest, hnames⟩ := List.exists_cons_of_ne_nil h.nonempty
    have hfirst := h.plain (hnames ▸ List.mem_cons_self)
    have hrest : rest.filter (fun segment => segment != [] && segment != ['.']) = rest := by
      rw [List.filter_eq_self]
      intro segment hsegment
      have hplain := h.plain (hnames ▸ List.mem_cons_of_mem first hsegment)
      simpa using ⟨hplain.one_part.1, hplain.not_dots.1⟩
    unfold pathComponents
    rw [hsegments, hnames]
    simp only [Bool.or_eq_true, beq_iff_eq, hfirst.one_part.1, hfirst.not_dots.1, or_self,
      if_false, hrest]
  have hne : ['\\'].intercalate names ≠ [] := by
    intro hnil
    rw [hnil, List.splitOnP_nil] at hparts
    have hplain := h.plain (hparts ▸ List.mem_cons_self)
    exact hplain.one_part.1 rfl
  exact ((pathComponents_eq_some_iff hne h.valid).mp hvalid).2

/-- What is joined has no more bytes than the path: parts that say nothing are gone, and each
separator has one byte. -/
theorem size_intercalate_le (h : AcceptedNames path names) :
    (String.ofList (['\\'].intercalate names)).utf8ByteSize ≤ path.utf8ByteSize := by
  have hseparator : ∀ c, isSeparator c = true → c.utf8Size = 1 := by
    intro c hc
    have hcases : c = '/' ∨ c = '\\' := by simpa [isSeparator] using hc
    rcases hcases with rfl | rfl <;> rfl
  have hpath := utf8ByteSize_ofList path.toList
  rw [String.ofList_toList] at hpath
  have hparts := sum_splitOnP hseparator path.toList
  have hjoined := sum_intercalate (hseparator '\\' rfl) h.nonempty
  have hle := (h.sublist.map fun part => (part.map Char.utf8Size).sum + 1).sum_le_sum
    fun _ _ => Nat.zero_le _
  rw [utf8ByteSize_ofList, hpath]
  omega

/-- The names are accepted again as they are. -/
theorem again (h : AcceptedNames path names) :
    AcceptedNames (.ofList (['\\'].intercalate names)) names where
  nonempty := h.nonempty
  components := by rw [String.toList_ofList]; exact h.components_intercalate
  valid := h.valid
  count := h.count
  size := h.size_intercalate_le.trans h.size

/-- An accepted path does not name the root. -/
theorem not_isCurrentDirectory (h : AcceptedNames path names) :
    isCurrentDirectory path = false := by
  by_contra hcurrent
  rw [Bool.not_eq_false, isCurrentDirectory_iff, h.components] at hcurrent
  cases names <;> cases hcurrent

/-- It leads to a place below the root, whatever the root is. -/
theorem confined (h : AcceptedNames path names) :
    Confined path (.ofList (['\\'].intercalate names)) := by
  have hcomponents := h.again.components
  refine ⟨names, h.nonempty, fun _ => h.plain, h.components, hcomponents, fun α root => ?_⟩
  rw [hcomponents]
  exact root.join_map_normal_inside h.nonempty

end AcceptedNames

/-- A directory that is accepted is accepted again as it is. -/
theorem workspaceRelativeDirectory_again {path result : String}
    (h : workspaceRelativeDirectory path = some result) :
    workspaceRelativeDirectory result = some result := by
  by_cases hroot : isCurrentDirectory path = true
  · have hdirectory : workspaceRelativeDirectory path = some "." := by
      rw [workspaceRelativeDirectory, if_pos hroot]
    obtain rfl : "." = result := Option.some.inj (hdirectory.symm.trans h)
    decide
  · rw [Bool.not_eq_true] at hroot
    obtain ⟨names, hnames, rfl⟩ := (workspaceRelativeDirectory_eq_some hroot).mp h
    exact (workspaceRelativeDirectory_eq_some hnames.again.not_isCurrentDirectory).mpr
      ⟨names, hnames.again, rfl⟩

/-- The root itself is no confined path. -/
theorem current_not_confined : workspaceRelativeDirectory "." = some "." ∧ ¬Confined "." "." := by
  refine ⟨by decide, ?_⟩
  rintro ⟨names, hne, -, hcomponents, -⟩
  have hcurrent : components ".".toList = [.current] := by decide
  rw [hcurrent] at hcomponents
  cases names <;> cases hcomponents

/-- A path that either broker accepts stays strictly inside any root it is joined to, or is the root
itself, in which commands may run and which no file has for its path. What is accepted is accepted
again unchanged, and the two accept the same of every other path. -/
theorem workspace_paths_confined :
    (∀ path result, workspaceRelativeDirectory path = some result →
      (components path.toList = [.current] ∧ result = "." ∨ Confined path result) ∧
        workspaceRelativeDirectory result = some result) ∧
      (∀ path result, workspaceRelativePath path = some result →
        Confined path result ∧ workspaceRelativePath result = some result) ∧
      ∀ path, components path.toList ≠ [.current] →
        workspaceRelativeDirectory path = workspaceRelativePath path := by
  refine ⟨?_, ?_, ?_⟩
  · intro path result h
    by_cases hroot : isCurrentDirectory path = true
    · have hdirectory : workspaceRelativeDirectory path = some "." := by
        rw [workspaceRelativeDirectory, if_pos hroot]
      obtain rfl : "." = result := Option.some.inj (hdirectory.symm.trans h)
      exact ⟨.inl ⟨isCurrentDirectory_iff.mp hroot, rfl⟩, workspaceRelativeDirectory_again h⟩
    · rw [Bool.not_eq_true] at hroot
      have hagain := workspaceRelativeDirectory_again h
      obtain ⟨names, hnames, rfl⟩ := (workspaceRelativeDirectory_eq_some hroot).mp h
      exact ⟨.inr hnames.confined, hagain⟩
  · intro path result h
    obtain ⟨names, hnames, rfl⟩ := workspaceRelativePath_eq_some.mp h
    exact ⟨hnames.confined, workspaceRelativePath_eq_some.mpr ⟨names, hnames.again, rfl⟩⟩
  · intro path hroot
    have hcurrent : isCurrentDirectory path = false := by
      rw [Bool.eq_false_iff]
      exact fun h => hroot (isCurrentDirectory_iff.mp h)
    exact workspaceRelativeDirectory_eq hcurrent

end Mio.Broker
