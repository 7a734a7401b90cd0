import Mathlib.Data.List.Basic
import Mathlib.Tactic.Common
import Mio.Library.Numerals

/-!
# Semantic versions

The grammar of a semantic version: three numbers, then the identifiers of a prerelease after a `-`,
then those of a build after a `+`. A number has no leading zero, and neither has an identifier of a
prerelease that is one. `parse` reads a version and is the inverse of `Version.text` on the versions
that are well formed (`parse_eq_some_iff`).
-/

namespace Mio.Library.Semver

/-! ## Versions -/

/-- Whether the digits are a number without a leading zero. -/
def isNumeral (digits : List Char) : Bool :=
  !digits.isEmpty && digits.all Char.isDigit && (digits.head? != some '0' || digits == ['0'])

/-- Whether the character may be in an identifier. -/
def isIdentifierChar (c : Char) : Bool := c.isAlphanum || c == '-'

/-- Whether the text is an identifier of a build. -/
def isBuildIdentifier (id : List Char) : Bool := !id.isEmpty && id.all isIdentifierChar

/-- Whether the text is an identifier of a prerelease. -/
def isPrereleaseIdentifier (id : List Char) : Bool :=
  isBuildIdentifier id && (!id.all Char.isDigit || isNumeral id)

/-- A version, by its parts. -/
structure Version where
  major : List Char
  minor : List Char
  patch : List Char
  prerelease : List (List Char)
  build : List (List Char)
  deriving DecidableEq

/-- Identifiers after the character that announces them. -/
def announced (c : Char) (ids : List (List Char)) : List Char :=
  if ids.isEmpty then [] else c :: ['.'].intercalate ids

namespace Version

/-- The three numbers. -/
def core (v : Version) : List Char := ['.'].intercalate [v.major, v.minor, v.patch]

/-- The version, written. -/
def text (v : Version) : List Char :=
  v.core ++ announced '-' v.prerelease ++ announced '+' v.build

/-- Whether the parts follow the grammar. -/
def wellFormed (v : Version) : Bool :=
  isNumeral v.major && isNumeral v.minor && isNumeral v.patch &&
    v.prerelease.all isPrereleaseIdentifier && v.build.all isBuildIdentifier

/-- The three numbers are below a bound. -/
def fits (bound : ℕ) (v : Version) : Bool :=
  [v.major, v.minor, v.patch].all fun digits => Nat.ofDigitChars 10 digits 0 < bound

end Version

/-- The identifiers that a text announces. -/
def announcedIds : List Char → List (List Char)
  | [] => []
  | _ :: rest => rest.splitOn '.'

/-- Reads a version. -/
def parse (text : List Char) : Option Version :=
  let front := text.takeWhile (· != '+')
  match (front.takeWhile (· != '-')).splitOn '.' with
  | [major, minor, patch] =>
    let v : Version :=
      { major, minor, patch
        prerelease := announcedIds (front.dropWhile (· != '-'))
        build := announcedIds (text.dropWhile (· != '+')) }
    if v.wellFormed then some v else none
  | _ => none

/-! ## The characters of a version -/

/-- A numeral is made of digits, and a leading zero is all of it. -/
theorem isNumeral_iff {digits : List Char} :
    isNumeral digits = true ↔
      digits ≠ [] ∧ AllDigits digits ∧ (digits.head? = some '0' → digits = ['0']) := by
  simp only [isNumeral, Bool.and_eq_true, Bool.not_eq_true', List.isEmpty_eq_false_iff,
    List.all_eq_true, Bool.or_eq_true, bne_iff_ne, beq_iff_eq, and_assoc, AllDigits]
  refine and_congr_right fun _ => and_congr_right fun _ => ?_
  rw [imp_iff_not_or]

/-- A digit may be in an identifier. -/
theorem isIdentifierChar_of_isDigit {c : Char} (h : c.isDigit = true) :
    isIdentifierChar c = true := by
  simp [isIdentifierChar, Char.isAlphanum, h]

/-- An identifier of a build has only such characters. -/
theorem isBuildIdentifier_iff {id : List Char} :
    isBuildIdentifier id = true ↔ id ≠ [] ∧ ∀ c ∈ id, isIdentifierChar c = true := by
  simp [isBuildIdentifier]

/-- An identifier of a prerelease is one of a build. -/
theorem isBuildIdentifier_of_isPrereleaseIdentifier {id : List Char}
    (h : isPrereleaseIdentifier id = true) : isBuildIdentifier id = true := by
  rw [isPrereleaseIdentifier, Bool.and_eq_true] at h
  exact h.1

/-- No identifier has a dot. -/
theorem isIdentifierChar_dot : isIdentifierChar '.' = false := by decide

/-- No identifier has a plus. -/
theorem isIdentifierChar_plus : isIdentifierChar '+' = false := by decide

/-- A letter of a joined text is the separator or comes from a part. -/
theorem mem_intercalate {α : Type*} {sep a : α} {parts : List (List α)}
    (h : a ∈ [sep].intercalate parts) : a = sep ∨ ∃ part ∈ parts, a ∈ part := by
  induction parts with
  | nil => simp [List.intercalate_nil] at h
  | cons part parts ih =>
    cases parts with
    | nil =>
      rw [List.intercalate_singleton] at h
      exact .inr ⟨part, by simp, h⟩
    | cons next rest =>
      rw [List.intercalate_cons_cons, List.append_assoc, List.mem_append, List.mem_append,
        List.mem_singleton] at h
      rcases h with h | h | h
      · exact .inr ⟨part, by simp, h⟩
      · exact .inl h
      · obtain hsep | ⟨other, hother, hmem⟩ := ih h
        · exact .inl hsep
        · exact .inr ⟨other, List.mem_cons_of_mem _ hother, hmem⟩

/-- Identifiers that leave nothing are none. -/
theorem eq_nil_of_intercalate {ids : List (List Char)} (hids : ids.all isBuildIdentifier = true)
    (h : ['.'].intercalate ids = []) : ids = [] := by
  cases ids with
  | nil => rfl
  | cons id rest =>
    have hid := (isBuildIdentifier_iff.mp (List.all_eq_true.mp hids id List.mem_cons_self)).1
    refine absurd ?_ hid
    cases rest with
    | nil => rwa [List.intercalate_singleton] at h
    | cons next rest =>
      rw [List.intercalate_cons_cons, List.append_assoc, List.append_eq_nil_iff] at h
      exact h.1

/-- What identifiers announce has their characters only, and dots. -/
theorem mem_announced {c sign : Char} {ids : List (List Char)}
    (hids : ids.all isBuildIdentifier = true) (h : c ∈ announced sign ids) :
    c = sign ∨ c = '.' ∨ isIdentifierChar c = true := by
  unfold announced at h
  split at h
  · simp at h
  · rcases List.mem_cons.mp h with h | h
    · exact .inl h
    · obtain hdot | ⟨id, hid, hmem⟩ := mem_intercalate h
      · exact .inr (.inl hdot)
      · exact .inr (.inr ((isBuildIdentifier_iff.mp (List.all_eq_true.mp hids id hid)).2 c hmem))

/-- What a well-formed version is made of. -/
structure Version.Parts (v : Version) : Prop where
  major : isNumeral v.major = true
  minor : isNumeral v.minor = true
  patch : isNumeral v.patch = true
  prerelease : v.prerelease.all isBuildIdentifier = true
  build : v.build.all isBuildIdentifier = true

/-- The parts of a well-formed version. -/
theorem Version.parts {v : Version} (h : v.wellFormed = true) : v.Parts := by
  simp only [wellFormed, Bool.and_eq_true] at h
  obtain ⟨⟨⟨⟨hmajor, hminor⟩, hpatch⟩, hprerelease⟩, hbuild⟩ := h
  refine ⟨hmajor, hminor, hpatch, ?_, hbuild⟩
  rw [List.all_eq_true] at hprerelease ⊢
  exact fun id hid => isBuildIdentifier_of_isPrereleaseIdentifier (hprerelease id hid)

/-- The three numbers have only digits and dots. -/
theorem Version.mem_core {v : Version} (h : v.Parts) {c : Char} (hc : c ∈ v.core) :
    c = '.' ∨ c.isDigit = true := by
  obtain hdot | ⟨part, hpart, hmem⟩ := mem_intercalate hc
  · exact .inl hdot
  · have hnumeral : isNumeral part = true := by
      simp only [List.mem_cons, List.not_mem_nil, or_false] at hpart
      rcases hpart with rfl | rfl | rfl
      · exact h.major
      · exact h.minor
      · exact h.patch
    exact .inr ((isNumeral_iff.mp hnumeral).2.1 c hmem)

/-- A version starts with a digit. -/
theorem Version.text_head {v : Version} (h : v.Parts) :
    ∃ digit rest, v.text = digit :: rest ∧ digit.isDigit = true := by
  obtain ⟨hne, hdigits, -⟩ := isNumeral_iff.mp h.major
  obtain ⟨digit, rest, hmajor⟩ := List.exists_cons_of_ne_nil hne
  have htext : ∃ tail, v.text = digit :: tail := by
    rw [text, core, List.intercalate_cons_cons, hmajor]
    exact ⟨_, rfl⟩
  obtain ⟨tail, htail⟩ := htext
  exact ⟨digit, tail, htail, hdigits digit (hmajor ▸ List.mem_cons_self)⟩

/-- Without a build, a version has digits, letters, dots, and hyphens only. -/
theorem Version.mem_text {v : Version} (h : v.Parts) (hbuild : v.build = []) {c : Char}
    (hc : c ∈ v.text) : c = '.' ∨ isIdentifierChar c = true := by
  rw [text, hbuild, List.mem_append, List.mem_append] at hc
  rcases hc with (hc | hc) | hc
  · rcases mem_core h hc with hdot | hdigit
    · exact .inl hdot
    · exact .inr (isIdentifierChar_of_isDigit hdigit)
  · rcases mem_announced h.prerelease hc with rfl | hdot | hchar
    · exact .inr rfl
    · exact .inl hdot
    · exact .inr hchar
  · simp [announced] at hc

/-! ## Reading a version back -/

/-- The identifiers after a sign are read back. -/
theorem announcedIds_announced {sign : Char} {ids : List (List Char)}
    (hids : ids.all isBuildIdentifier = true) : announcedIds (announced sign ids) = ids := by
  unfold announced
  split
  · rename_i hempty
    rw [List.isEmpty_iff.mp hempty]
    rfl
  · rename_i hne
    refine List.splitOn_intercalate '.' (fun id hid hmem => ?_) (by simpa using hne)
    have hchar := (isBuildIdentifier_iff.mp (List.all_eq_true.mp hids id hid)).2 '.' hmem
    rw [isIdentifierChar_dot] at hchar
    cases hchar

/-- What is read as announced is announced by these identifiers. -/
theorem announced_announcedIds {sign : Char} {rest : List Char}
    (h : rest = [] ∨ ∃ tail, rest = sign :: tail) : announced sign (announcedIds rest) = rest := by
  rcases h with rfl | ⟨tail, rfl⟩
  · rfl
  · have hne : (tail.splitOn '.').isEmpty = false :=
      List.isEmpty_eq_false_iff.mpr (List.splitOn_ne_nil '.' tail)
    show announced sign (tail.splitOn '.') = sign :: tail
    rw [announced, hne, if_neg (by decide), List.intercalate_splitOn]

section Span

variable {sign : Char}

/-- A text is cut at the first sign. -/
theorem span_append {front rest : List Char} (hfront : sign ∉ front)
    (hrest : rest = [] ∨ ∃ tail, rest = sign :: tail) :
    (front ++ rest).takeWhile (· != sign) = front ∧
      (front ++ rest).dropWhile (· != sign) = rest := by
  have hpos : ∀ c ∈ front, (c != sign) = true := by
    intro c hc
    rw [bne_iff_ne]
    rintro rfl
    exact hfront hc
  rw [List.takeWhile_append_of_pos hpos, List.dropWhile_append_of_pos hpos]
  rcases hrest with rfl | ⟨tail, rfl⟩ <;> simp

/-- What is left after the cut begins with the sign, if anything is. -/
theorem dropWhile_sign (text : List Char) :
    text.dropWhile (· != sign) = [] ∨ ∃ tail, text.dropWhile (· != sign) = sign :: tail := by
  cases hdrop : text.dropWhile (· != sign) with
  | nil => exact .inl rfl
  | cons c tail =>
    have hhead := List.head?_dropWhile_not (· != sign) text
    rw [hdrop] at hhead
    obtain rfl : c = sign := by simpa using hhead
    exact .inr ⟨tail, rfl⟩

/-- What is announced begins with the sign, if anything is. -/
theorem announced_sign (sign : Char) (ids : List (List Char)) :
    announced sign ids = [] ∨ ∃ tail, announced sign ids = sign :: tail := by
  unfold announced
  split
  · exact .inl rfl
  · exact .inr ⟨_, rfl⟩

end Span

/-- A text is read as exactly the well-formed version that it is the text of. -/
theorem parse_eq_some_iff {text : List Char} {v : Version} :
    parse text = some v ↔ v.wellFormed = true ∧ v.text = text := by
  constructor
  · intro h
    unfold parse at h
    dsimp only at h
    split at h
    · rename_i major minor patch hsplit
      split_ifs at h with hwellFormed
      obtain rfl := Option.some.inj h
      refine ⟨hwellFormed, ?_⟩
      -- The core is taken apart at its dots, so joining its parts gives it back.
      have hcore :
        ['.'].intercalate (((text.takeWhile (· != '+')).takeWhile (· != '-')).splitOn '.') =
          (text.takeWhile (· != '+')).takeWhile (· != '-') := List.intercalate_splitOn '.'
      rw [hsplit] at hcore
      rw [Version.text, Version.core, hcore, announced_announcedIds (dropWhile_sign _),
        announced_announcedIds (dropWhile_sign _), List.takeWhile_append_dropWhile,
        List.takeWhile_append_dropWhile]
    · cases h
  · rintro ⟨hwellFormed, rfl⟩
    have hparts := Version.parts hwellFormed
    -- The first plus is the sign of the build metadata, and the first dash that of the prerelease.
    have hplus : '+' ∉ v.core ++ announced '-' v.prerelease := by
      rw [List.mem_append, not_or]
      constructor
      · intro hmem
        rcases Version.mem_core hparts hmem with h | h <;> simp at h
      · intro hmem
        rcases mem_announced hparts.prerelease hmem with h | h | h
        · simp at h
        · simp at h
        · rw [isIdentifierChar_plus] at h
          cases h
    have hdash : '-' ∉ v.core := by
      intro hmem
      rcases Version.mem_core hparts hmem with h | h <;> simp at h
    obtain ⟨hfront, hbuild⟩ := span_append hplus (announced_sign '+' v.build)
    obtain ⟨hcore, hprerelease⟩ := span_append hdash (announced_sign '-' v.prerelease)
    -- A numeral has no dot, so the core splits into its three numerals.
    have hsplit : v.core.splitOn '.' = [v.major, v.minor, v.patch] := by
      refine List.splitOn_intercalate '.' (fun part hpart hmem => ?_) (by simp)
      have hnumeral : isNumeral part = true := by
        simp only [List.mem_cons, List.not_mem_nil, or_false] at hpart
        rcases hpart with rfl | rfl | rfl
        · exact hparts.major
        · exact hparts.minor
        · exact hparts.patch
      have hdigit := (isNumeral_iff.mp hnumeral).2.1 '.' hmem
      simp at hdigit
    unfold parse
    rw [Version.text, hfront, hbuild]
    simp only [hcore, hprerelease, hsplit, announcedIds_announced hparts.prerelease,
      announcedIds_announced hparts.build]
    rw [if_pos hwellFormed]

example : (parse "1.0.0-beta.2".toList).map (·.prerelease) = some ["beta".toList, ['2']] := by
  decide

end Mio.Library.Semver
