import Mathlib.Algebra.GroupWithZero.Nat
import Mathlib.Algebra.Order.BigOperators.Group.List
import Mathlib.Data.FinEnum
import Mio.Library.SerdeJson
import Mio.Library.Semver

/-!
# JSON text on a line

What is needed of JSON text that is sent line by line. No control character stands in it
(`Printed.not_mem`), so the end of the line is the first one. It is at least as long as each of the
texts that it is put together from, and a string is at least as long as its text
(`le_length_quoted`).
-/

namespace Mio.Library.JsonBytes

/-! ## Control characters -/

/-- A text without a control character. -/
def Printed (text : Bytes) : Prop := ∀ byte ∈ text, 0x20 ≤ byte

instance (text : Bytes) : Decidable (Printed text) :=
  decidable_of_iff (text.all (fun byte => 0x20 ≤ byte) = true) (by simp [Printed])

/-- Two printed texts, one after the other. -/
theorem Printed.append {text more : Bytes} (h : Printed text) (hmore : Printed more) :
    Printed (text ++ more) := by
  intro byte hbyte
  rcases List.mem_append.mp hbyte with hbyte | hbyte
  · exact h byte hbyte
  · exact hmore byte hbyte

/-- A printed text has no control byte. -/
theorem Printed.not_mem {text : Bytes} (h : Printed text) {byte : UInt8} (hbyte : byte < 0x20) :
    byte ∉ text := by
  intro hmem
  have hle := h byte hmem
  rw [UInt8.le_iff_toNat_le] at hle
  rw [UInt8.lt_iff_toNat_lt] at hbyte
  omega

/-- A byte that is no control byte is printed. -/
theorem printed_singleton {byte : UInt8} (h : 0x20 ≤ byte) : Printed [byte] := by
  intro other hother
  rw [List.mem_singleton.mp hother]
  exact h

/-- An escape is printed. -/
theorem printed_escapeByte (byte : UInt8) : Printed (escapeByte byte) := by
  have hmarks : marks.all (fun mark => 0x20 ≤ mark.2) = true := by decide
  have hdigits : (List.range 16).all (fun n => 0x20 ≤ hexDigit n) = true := by decide
  have hdigit : ∀ n < 16, 0x20 ≤ hexDigit n := by
    intro n hn
    simpa using List.all_eq_true.mp hdigits n (List.mem_range.mpr hn)
  obtain ⟨heq, hback, hquote⟩ | ⟨mark, hmark, heq⟩ | ⟨-, heq⟩ := escapeByte_shape byte
  · rw [heq]
    refine printed_singleton ?_
    -- A control character is escaped.
    by_contra hcontrol
    unfold escapeByte at heq
    split_ifs at heq <;> simp_all
  · rw [heq]
    have hmark := List.all_eq_true.mp hmarks _ hmark
    exact (printed_singleton (by decide)).append (printed_singleton (of_decide_eq_true hmark))
  · rw [heq]
    have hhigh : byte.toNat / 16 < 16 := Nat.div_lt_of_lt_mul byte.toNat_lt
    have hlow : byte.toNat % 16 < 16 := Nat.mod_lt _ (by decide)
    intro other hother
    simp only [List.mem_cons, List.not_mem_nil, or_false] at hother
    rcases hother with rfl | rfl | rfl | rfl | rfl | rfl
    · decide
    · decide
    · decide
    · decide
    · exact hdigit _ hhigh
    · exact hdigit _ hlow

/-- A string escapes the control characters of its text. -/
theorem printed_quoted (value : String) : Printed (quoted value) := by
  have hquote : Printed [0x22] := printed_singleton (by decide)
  have hbody : Printed ((asBytes value).flatMap escapeByte) := by
    intro byte hbyte
    obtain ⟨source, -, hbyte⟩ := List.mem_flatMap.mp hbyte
    exact printed_escapeByte source byte hbyte
  exact (hquote.append hbody).append hquote

/-- A number is printed. -/
theorem printed_toString (n : ℕ) : Printed (asBytes (toString n)) := by
  intro byte hbyte
  have hdigit := isAsciiDigit_toString hbyte
  simp only [isAsciiDigit, Bool.and_eq_true, decide_eq_true_eq] at hdigit
  exact UInt8.le_trans (by decide) hdigit.1

/-- Printed texts between commas are printed. -/
theorem printed_intercalate {parts : List Bytes} (h : ∀ part ∈ parts, Printed part) :
    Printed ([0x2c].intercalate parts) := by
  intro byte hbyte
  obtain rfl | ⟨part, hpart, hbyte⟩ := Semver.mem_intercalate hbyte
  · decide
  · exact h part hpart byte hbyte

/-- An array of printed items is printed. -/
theorem printed_array {items : List Bytes} (h : ∀ item ∈ items, Printed item) :
    Printed (array items) :=
  ((printed_singleton (by decide)).append (printed_intercalate h)).append
    (printed_singleton (by decide))

/-- An object with printed values is printed. -/
theorem printed_object {fields : List (String × Bytes)} (h : ∀ field ∈ fields, Printed field.2) :
    Printed (object fields) := by
  have hparts : ∀ part ∈ fields.map fun field =>
    quoted field.1 ++ 0x3a :: field.2, Printed part := by
    intro part hpart
    obtain ⟨field, hfield, rfl⟩ := List.mem_map.mp hpart
    have hcolon : Printed ([0x3a] ++ field.2) :=
      (printed_singleton (by decide)).append (h field hfield)
    exact (printed_quoted field.1).append hcolon
  have hopen : Printed [0x7b] := printed_singleton (by decide)
  exact (hopen.append (printed_intercalate hparts)).append (printed_singleton (by decide))

/-! ## Lengths -/

/-- A field fits its object. -/
theorem length_le_object {fields : List (String × Bytes)} {name : String} {value : Bytes}
    (hfield : (name, value) ∈ fields) :
    (quoted name).length + value.length + 3 ≤ (object fields).length := by
  have hsum : (quoted name).length + value.length + 1 ≤
      (fields.map fun field => (quoted field.1).length + field.2.length + 1).sum :=
    List.single_le_sum (fun _ _ => Nat.zero_le _) _ (List.mem_map.mpr ⟨_, hfield, rfl⟩)
  rw [length_object]
  omega

/-- An object is longer than the text of a field. -/
theorem value_le_object {fields : List (String × Bytes)} {name : String} {value : Bytes}
    (hfield : (name, value) ∈ fields) : value.length ≤ (object fields).length := by
  have := length_le_object hfield
  omega

/-- The characters of names are visible, and none of them is escaped. -/
theorem plain_of_name : ∀ byte : UInt8, (isAsciiAlphanumeric byte || byte == 0x2d ||
    byte == 0x5f || byte == 0x3a || byte == 0x2e) = true →
      isAsciiGraphic byte = true ∧ byte ≠ 0x22 ∧ byte ≠ 0x5c := by
  decide +kernel

/-- A text that its grammar keeps free of what is escaped. -/
theorem length_quoted_of_bounded {maximum : ℕ} {allowed : ℕ → UInt8 → Bool} {value : String}
    (hallowed : ∀ index byte, allowed index byte = true →
      isAsciiGraphic byte = true ∧ byte ≠ 0x22 ∧ byte ≠ 0x5c)
    (h : boundedBytes maximum allowed value = true) :
    (quoted value).length = value.utf8ByteSize + 2 ∧ value.utf8ByteSize ≤ maximum := by
  obtain ⟨-, hsize, hbytes⟩ := boundedBytes_iff.mp h
  have hbyte : ∀ byte ∈ asBytes value, isAsciiGraphic byte = true ∧ byte ≠ 0x22 ∧ byte ≠ 0x5c := by
    intro byte hmem
    obtain ⟨index, hindex⟩ := List.mem_iff_getElem?.mp hmem
    exact hallowed index byte (hbytes byte index hindex)
  exact ⟨length_quoted_plain (fun byte hmem => (hbyte byte hmem).1) fun byte hmem =>
    (hbyte byte hmem).2, hsize⟩

/-- A text of visible ASCII of any kind. -/
theorem length_quoted_of_graphic {maximum : ℕ} {value : String}
    (h : boundedBytes maximum (fun _ byte => isAsciiGraphic byte) value = true) :
    (quoted value).length = value.utf8ByteSize + escapes value + 2 ∧
      value.utf8ByteSize ≤ maximum := by
  obtain ⟨-, hsize, hbytes⟩ := boundedBytes_iff.mp h
  refine ⟨length_quoted fun byte hmem => ?_, hsize⟩
  obtain ⟨index, hindex⟩ := List.mem_iff_getElem?.mp hmem
  exact hbytes byte index hindex

end Mio.Library.JsonBytes
