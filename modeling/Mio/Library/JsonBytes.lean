import Mathlib.Algebra.Order.BigOperators.Group.List
import Mio.Library.Text

/-!
# The size of JSON text

Compact JSON text, byte by byte, as a serializer writes it: strings with the escapes that it uses,
arrays, and objects. The length of a text is a sum over its parts, and that of a string of visible
ASCII is its own, two quotation marks, and one byte for each character that is escaped
(`length_quoted`).
-/

namespace Mio.Library.JsonBytes

/-- The digit of a number below sixteen, in lower case. -/
def hexDigit (n : ℕ) : UInt8 := if n < 10 then (0x30 + n).toUInt8 else (0x57 + n).toUInt8

/-- What stands for a byte in a string. -/
def escapeByte (byte : UInt8) : Bytes :=
  if byte == 0x22 || byte == 0x5c then [0x5c, byte]
  else if byte == 0x08 then [0x5c, 0x62]
  else if byte == 0x09 then [0x5c, 0x74]
  else if byte == 0x0a then [0x5c, 0x6e]
  else if byte == 0x0c then [0x5c, 0x66]
  else if byte == 0x0d then [0x5c, 0x72]
  else if byte < 0x20 then
    [0x5c, 0x75, 0x30, 0x30, hexDigit (byte.toNat / 16), hexDigit (byte.toNat % 16)]
  else [byte]

/-- A text as a JSON string. -/
def quoted (value : String) : Bytes := 0x22 :: (asBytes value).flatMap escapeByte ++ [0x22]

/-- A JSON array. -/
def array (items : List Bytes) : Bytes := 0x5b :: [0x2c].intercalate items ++ [0x5d]

/-- An object, from the names of its fields and the text of their values. -/
def object (fields : List (String × Bytes)) : Bytes :=
  0x7b :: [0x2c].intercalate (fields.map fun (name, value) => quoted name ++ 0x3a :: value) ++
    [0x7d]

/-- The visible characters of a text that are escaped: quotation marks and backslashes. -/
def escapes (value : String) : ℕ :=
  (asBytes value).countP fun byte => byte == 0x22 || byte == 0x5c

/-- A text of visible ASCII. -/
def Visible (value : String) : Prop := ∀ byte ∈ asBytes value, isAsciiGraphic byte = true

/-- A printable byte takes two bytes when it is escaped, and one otherwise. -/
theorem length_escapeByte {byte : UInt8} (h : isAsciiGraphic byte = true) :
    (escapeByte byte).length = if byte == 0x22 || byte == 0x5c then 2 else 1 := by
  simp only [isAsciiGraphic, Bool.and_eq_true, decide_eq_true_eq, UInt8.le_iff_toNat_le] at h
  have hlow : 0x21 ≤ byte.toNat := h.1
  have hne : ∀ control : UInt8, control.toNat < 0x20 → (byte == control) = false := by
    intro control hcontrol
    rw [beq_eq_false_iff_ne]
    rintro rfl
    omega
  have hge : ¬ byte < 0x20 := by
    rw [UInt8.lt_iff_toNat_lt]
    show ¬ byte.toNat < 32
    omega
  unfold escapeByte
  split_ifs
  · rfl
  all_goals first
    | rfl
    | exact absurd ‹_› hge
    | exact absurd ‹_› (by rw [hne _ (by decide)]; decide)

/-- The length of a string of visible ASCII. -/
theorem length_quoted {value : String} (h : Visible value) :
    (quoted value).length = value.utf8ByteSize + escapes value + 2 := by
  have hbytes : ∀ bytes : Bytes, (∀ byte ∈ bytes, isAsciiGraphic byte = true) →
      (bytes.flatMap escapeByte).length =
        bytes.length + bytes.countP fun byte => byte == 0x22 || byte == 0x5c := by
    intro bytes
    induction bytes with
    | nil => simp
    | cons byte bytes ih =>
      intro hall
      rw [List.forall_mem_cons] at hall
      rw [List.flatMap_cons, List.length_append, ih hall.2, length_escapeByte hall.1,
        List.countP_cons, List.length_cons]
      split_ifs <;> omega
  rw [quoted, List.length_append, List.length_cons, hbytes _ h,
    length_asBytes, List.length_singleton]
  show value.utf8ByteSize + escapes value + 1 + 1 = _
  omega

/-- A text without a quotation mark or a backslash has one byte for each of its own. -/
theorem length_quoted_plain {value : String} (h : Visible value)
    (hplain : ∀ byte ∈ asBytes value, byte ≠ 0x22 ∧ byte ≠ 0x5c) :
    (quoted value).length = value.utf8ByteSize + 2 := by
  have hescapes : escapes value = 0 := by
    rw [escapes, List.countP_eq_zero]
    intro byte hbyte
    obtain ⟨hquote, hbackslash⟩ := hplain byte hbyte
    simp [hquote, hbackslash]
  rw [length_quoted h, hescapes, Nat.add_zero]

/-- No more bytes are escaped than there are. -/
theorem escapes_le (value : String) : escapes value ≤ value.utf8ByteSize := by
  rw [← length_asBytes]
  exact List.countP_le_length

/-- Parts that are put together have one byte between each two. -/
theorem length_intercalate (sep : UInt8) (parts : List Bytes) :
    ([sep].intercalate parts).length = (parts.map List.length).sum + (parts.length - 1) := by
  induction parts with
  | nil => rfl
  | cons part parts ih =>
    cases parts with
    | nil => simp
    | cons next rest =>
      have hrest : ([sep].intercalate (next :: rest)).length =
          next.length + (rest.map List.length).sum + rest.length := by
        rw [ih, List.map_cons, List.sum_cons, List.length_cons, Nat.add_sub_cancel]
      rw [List.intercalate_cons_cons, List.length_append, List.length_append, hrest]
      simp only [List.map_cons, List.sum_cons, List.length_cons, List.length_nil]
      omega

/-- The length of an array, by those of its items. -/
theorem length_array (items : List Bytes) :
    (array items).length = (items.map List.length).sum + (items.length - 1) + 2 := by
  rw [array, List.length_append, List.length_cons, length_intercalate, List.length_singleton]

/-- The length of an object, by those of its fields. -/
theorem length_object (fields : List (String × Bytes)) :
    (object fields).length =
      (fields.map fun field => (quoted field.1).length + field.2.length + 1).sum +
        (fields.length - 1) + 2 := by
  have hmap : (fields.map fun (name, value) => quoted name ++ 0x3a :: value).map List.length =
      fields.map fun field => (quoted field.1).length + field.2.length + 1 := by
    rw [List.map_map]
    refine List.map_congr_left fun field _ => ?_
    simp only [Function.comp_apply, List.length_append, List.length_cons]
    omega
  rw [object, List.length_append, List.length_cons, length_intercalate, hmap, List.length_map,
    List.length_singleton]

example : quoted "a\"\\" = asBytes "\"a\\\"\\\\\"" := by decide

end Mio.Library.JsonBytes
