import Mathlib.Algebra.Order.BigOperators.Group.List
import Mio.Library.Text

/-!
# Characters and bytes

A character has between one and four bytes, so a limit in characters and one in bytes are not the
same.
-/

namespace Mio.Library

/-- A text has at most four bytes for each character. -/
theorem utf8ByteSize_le_four_mul (value : String) : value.utf8ByteSize ≤ 4 * value.length := by
  have hsize := utf8ByteSize_ofList value.toList
  rw [String.ofList_toList] at hsize
  rw [hsize, ← String.length_toList]
  induction value.toList with
  | nil => simp
  | cons c chars ih =>
    have hc := c.utf8Size_le_four
    rw [List.map_cons, List.sum_cons, List.length_cons]
    omega

/-- A text has at least one byte for each character. -/
theorem length_le_utf8ByteSize (value : String) : value.length ≤ value.utf8ByteSize := by
  have hsize := utf8ByteSize_ofList value.toList
  rw [String.ofList_toList] at hsize
  rw [hsize, ← String.length_toList]
  induction value.toList with
  | nil => simp
  | cons c chars ih =>
    have hc := c.utf8Size_pos
    rw [List.map_cons, List.sum_cons, List.length_cons]
    omega

/-- What is left of a text once it is trimmed has no more bytes. -/
theorem utf8ByteSize_trim_le (value : String) : (trim value).utf8ByteSize ≤ value.utf8ByteSize := by
  have hsub :
    ((value.toList.dropWhile isWhitespace).rdropWhile isWhitespace).Sublist value.toList :=
    (List.rdropWhile_prefix _ _).sublist.trans (List.dropWhile_sublist _)
  have hsize := utf8ByteSize_ofList value.toList
  rw [String.ofList_toList] at hsize
  rw [trim, utf8ByteSize_ofList, hsize]
  exact (hsub.map Char.utf8Size).sum_le_sum fun _ _ => Nat.zero_le _

/-- A text that neither starts nor ends with white space is its own trimmed form. -/
theorem trim_replicate {c : Char} (hc : isWhitespace c = false) (n : ℕ) :
    trim (.ofList (List.replicate n c)) = .ofList (List.replicate n c) := by
  have hdrop : (List.replicate n c).dropWhile isWhitespace = List.replicate n c := by
    cases n with
    | zero => rfl
    | succ n => rw [List.replicate_succ, List.dropWhile_cons_of_neg (by simp [hc])]
  rw [trim, String.toList_ofList, hdrop, List.rdropWhile, List.reverse_replicate, hdrop,
    List.reverse_replicate]

/-- A hexadecimal digit is a letter or a digit in ASCII. -/
theorem isAsciiAlphanumeric_digitChar :
    ∀ d < 16, (String.utf8EncodeChar (Nat.digitChar d)).all isAsciiAlphanumeric = true := by
  decide

/-- The bytes of a number in hexadecimal. -/
theorem isAsciiAlphanumeric_lowerHex {width n : ℕ} {byte : UInt8}
    (h : byte ∈ asBytes (lowerHex width n)) : isAsciiAlphanumeric byte = true := by
  have hzero : (String.utf8EncodeChar '0').all isAsciiAlphanumeric = true := by decide
  rw [asBytes_eq_flatMap] at h
  obtain ⟨c, hc, hbyte⟩ := List.mem_flatMap.mp h
  rw [lowerHex, String.toList_ofList, List.leftpad, List.mem_append] at hc
  rcases hc with hc | hc
  · obtain rfl := List.eq_of_mem_replicate hc
    exact List.all_eq_true.mp hzero byte hbyte
  · obtain ⟨d, hd, rfl⟩ := mem_toDigits (by decide) hc
    exact List.all_eq_true.mp (isAsciiAlphanumeric_digitChar d hd) byte hbyte

end Mio.Library
