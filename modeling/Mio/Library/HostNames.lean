import Mathlib.Data.List.Basic
import Mio.Library.Semver

/-!
# Host names and addresses

A host name is a sequence of labels (`IsHostName`). Some of these are not read as names at all: a
resolver takes a text of numbers for an IPv4 address, which may be written in fewer than four parts
and in octal or hexadecimal (`isAddress`). A strict reader takes only the dotted form of four
decimal numbers (`isDottedQuad`), which is one of the addresses (`isAddress_of_isDottedQuad`).
-/

namespace Mio.Library

/-- A label has letters, digits, and hyphens, and no hyphen at its ends. -/
structure IsLabel (label : List Char) : Prop where
  nonempty : label ≠ []
  length_le : label.length ≤ 63
  chars : ∀ c ∈ label, c.isAlphanum = true ∨ c = '-'
  first : ∀ c ∈ label.head?, c.isAlphanum = true
  last : ∀ c ∈ label.getLast?, c.isAlphanum = true

/-- The text is a host name: labels between dots, within the lengths. -/
structure IsHostName (host : List Char) : Prop where
  nonempty : host ≠ []
  length_le : host.length ≤ 253
  labels : ∀ label ∈ host.splitOn '.', IsLabel label

/-- Whether the character is an octal digit. -/
def isOctalDigit (c : Char) : Bool := '0' ≤ c && c ≤ '7'

/-- Whether the character is a hexadecimal digit. -/
def isHexDigit (c : Char) : Bool := c.isDigit || ('a' ≤ c && c ≤ 'f') || ('A' ≤ c && c ≤ 'F')

/-- The value of a hexadecimal digit. -/
def hexDigitValue (c : Char) : ℕ :=
  if c.isDigit then c.toNat - 48 else if 'a' ≤ c then c.toNat - 87 else c.toNat - 55

/-- The value of hexadecimal digits. -/
def hexDigitsValue (digits : List Char) : ℕ :=
  digits.foldl (fun value c => value * 16 + hexDigitValue c) 0

/-- The number in a part of an address. It is hexadecimal after `0x`, and octal after another zero.
-/
def partValue (part : List Char) : Option ℕ :=
  match part with
  | '0' :: mark :: digits =>
    if mark = 'x' ∨ mark = 'X' then
      if !digits.isEmpty && digits.all isHexDigit then some (hexDigitsValue digits) else none
    else if (mark :: digits).all isOctalDigit then some (Nat.ofDigitChars 8 (mark :: digits) 0)
    else none
  | digits =>
    if !digits.isEmpty && digits.all Char.isDigit then some (Nat.ofDigitChars 10 digits 0) else none

/-- An IPv4 address as `inet_aton` takes it. Every part but the last one is a byte, and the last one
is what is left of the address. -/
def isAddress (host : List Char) : Bool :=
  match (host.splitOn '.').mapM partValue with
  | none => false
  | some values =>
    values.length ≤ 4 && values.dropLast.all (· < 256) &&
      values.getLastD 0 < 256 ^ (5 - values.length)

/-- A byte in decimal, without a leading zero. -/
def isOctet (part : List Char) : Bool :=
  Semver.isNumeral part && part.length ≤ 3 && Nat.ofDigitChars 10 part 0 < 256

/-- An IPv4 address of four decimal bytes. -/
def isDottedQuad (host : List Char) : Bool :=
  (host.splitOn '.').length == 4 && (host.splitOn '.').all isOctet

/-- A byte without a leading zero is read as it is. -/
theorem partValue_of_isOctet {part : List Char} (h : isOctet part = true) :
    ∃ value, partValue part = some value ∧ value < 256 := by
  rw [isOctet, Bool.and_eq_true, Bool.and_eq_true, Semver.isNumeral_iff] at h
  obtain ⟨⟨⟨hne, hdigits, hzero⟩, -⟩, hvalue⟩ := h
  refine ⟨Nat.ofDigitChars 10 part 0, ?_, of_decide_eq_true hvalue⟩
  have hempty : part.isEmpty = false := by simpa using hne
  have hall : part.all Char.isDigit = true := List.all_eq_true.mpr hdigits
  unfold partValue
  split
  · next mark digits =>
    -- A numeral that starts with a zero has no other digit.
    cases hzero rfl
  · rw [hempty, hall]
    rfl

/-- What a strict reader takes for an address is one. -/
theorem isAddress_of_isDottedQuad {host : List Char} (h : isDottedQuad host = true) :
    isAddress host = true := by
  rw [isDottedQuad, Bool.and_eq_true, beq_iff_eq] at h
  obtain ⟨hlength, hoctets⟩ := h
  obtain ⟨a, b, c, d, hparts⟩ := List.length_eq_four.mp hlength
  rw [hparts] at hoctets
  simp only [List.all_cons, List.all_nil, Bool.and_true, Bool.and_eq_true] at hoctets
  obtain ⟨ha, hb, hc, hd⟩ := hoctets
  obtain ⟨first, hfirst, hfirst'⟩ := partValue_of_isOctet ha
  obtain ⟨second, hsecond, hsecond'⟩ := partValue_of_isOctet hb
  obtain ⟨third, hthird, hthird'⟩ := partValue_of_isOctet hc
  obtain ⟨fourth, hfourth, hfourth'⟩ := partValue_of_isOctet hd
  have hvalues : [a, b, c, d].mapM partValue = some [first, second, third, fourth] := by
    simp [hfirst, hsecond, hthird, hfourth]
  unfold isAddress
  rw [hparts, hvalues]
  simp [hfirst', hsecond', hthird', hfourth']

example : isAddress "0x7f.1".toList = true ∧ isDottedQuad "0x7f.1".toList = false := by decide

end Mio.Library
