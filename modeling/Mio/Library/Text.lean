import Mathlib.Algebra.GroupWithZero.Nat
import Mathlib.Data.List.DropRight
import Mathlib.Data.List.Enum
import Mathlib.Data.String.Basic
import Mathlib.Tactic.Common

/-!
# Text and its bytes

A text is a `String`: a sequence of Unicode scalar values whose length is that of its UTF-8
encoding. The checks on texts are of two kinds. A grammar (`boundedBytes`) bounds the length and
says which byte may stand at which index. Blankness (`isBlank`) is about the text without the white
space around it.
-/

namespace Mio.Library

/-- A sequence of bytes, such as the content of a file. -/
abbrev Bytes := List UInt8

/-- The bytes of a text's UTF-8 encoding. -/
def asBytes (value : String) : Bytes := value.toByteArray.data.toList

/-- A text has as many bytes as its size says. -/
theorem length_asBytes (value : String) : (asBytes value).length = value.utf8ByteSize := rfl

/-- The bytes of two texts, one after the other. -/
@[simp]
theorem asBytes_append (s t : String) : asBytes (s ++ t) = asBytes s ++ asBytes t := by
  simp [asBytes, ByteArray.data_append]

/-- A text is told by its bytes. -/
theorem asBytes_inj {s t : String} (h : asBytes s = asBytes t) : s = t :=
  String.toByteArray_inj.mp (ByteArray.ext (Array.toList_inj.mp h))

/-- The text whose encoding the bytes are, if they are one (`str::from_utf8`). -/
def utf8Text (bytes : Bytes) : Option String := String.fromUTF8? ⟨bytes.toArray⟩

/-- The bytes of a text are read back as it. -/
theorem utf8Text_asBytes (value : String) : utf8Text (asBytes value) = some value := by
  have hbytes : ByteArray.mk (asBytes value).toArray = value.toByteArray := by
    simp [asBytes]
  unfold utf8Text
  rw [hbytes, String.fromUTF8?, dif_pos value.isValidUTF8]
  rfl

/-- The bytes are those of the characters, one after the other. -/
theorem asBytes_eq_flatMap (value : String) :
    asBytes value = value.toList.flatMap String.utf8EncodeChar := by
  rw [asBytes, ← String.utf8Encode_toList, List.utf8Encode]
  simp

/-- The size of a text is that of its characters together. -/
theorem utf8ByteSize_ofList (chars : List Char) :
    (String.ofList chars).utf8ByteSize = (chars.map Char.utf8Size).sum := by
  rw [← length_asBytes, asBytes_eq_flatMap, String.toList_ofList, List.length_flatMap]
  congr 1
  exact List.map_congr_left fun c _ => String.length_utf8EncodeChar c

/-- A byte that is an ASCII digit. -/
def isAsciiDigit (byte : UInt8) : Bool := 0x30 ≤ byte && byte ≤ 0x39

/-- A byte that is an ASCII letter or digit. -/
def isAsciiAlphanumeric (byte : UInt8) : Bool :=
  isAsciiDigit byte || 0x41 ≤ byte && byte ≤ 0x5a || 0x61 ≤ byte && byte ≤ 0x7a

/-- A byte that is a visible ASCII character. -/
def isAsciiGraphic (byte : UInt8) : Bool := 0x21 ≤ byte && byte ≤ 0x7e

/-- A grammar: not empty, at most `maximum` bytes, and each byte allowed at its index. -/
def boundedBytes (maximum : ℕ) (allowed : ℕ → UInt8 → Bool) (value : String) : Bool :=
  !value.isEmpty && value.utf8ByteSize ≤ maximum &&
    (asBytes value).zipIdx.all fun (byte, index) => allowed index byte

/-- A bounded text is not empty, not too long, and of allowed bytes. -/
theorem boundedBytes_iff {maximum : ℕ} {allowed : ℕ → UInt8 → Bool} {value : String} :
    boundedBytes maximum allowed value = true ↔
      value ≠ "" ∧ value.utf8ByteSize ≤ maximum ∧
        ∀ (byte : UInt8) (index : ℕ), (asBytes value)[index]? = some byte →
          allowed index byte = true := by
  simp only [boundedBytes, Bool.and_eq_true, Bool.not_eq_true', decide_eq_true_eq,
    List.all_eq_true, List.mem_zipIdx_iff_getElem?, Prod.forall, and_assoc]
  simp only [Bool.eq_false_iff, ne_eq, String.isEmpty_iff]

/-- A text in a grammar, followed by bytes that are allowed wherever they stand after it, is in the
grammar as long as the whole fits. -/
theorem boundedBytes_append {maximum : ℕ} {allowed : ℕ → UInt8 → Bool} {s t : String}
    (hs : boundedBytes maximum allowed s = true)
    (hsize : s.utf8ByteSize + t.utf8ByteSize ≤ maximum)
    (ht : ∀ byte ∈ asBytes t, ∀ index, 0 < index → allowed index byte = true) :
    boundedBytes maximum allowed (s ++ t) = true := by
  rw [boundedBytes_iff] at hs ⊢
  obtain ⟨hne, -, hbytes⟩ := hs
  refine ⟨by simp [hne], by rw [String.utf8ByteSize_append]; exact hsize, ?_⟩
  intro byte index h
  rw [asBytes_append] at h
  have hpos : 0 < (asBytes s).length := by
    rw [length_asBytes]
    exact Nat.pos_of_ne_zero fun h0 => hne (String.utf8ByteSize_eq_zero_iff.mp h0)
  rcases lt_or_ge index (asBytes s).length with hlt | hge
  · rw [List.getElem?_append_left hlt] at h
    exact hbytes byte index h
  · rw [List.getElem?_append_right hge] at h
    exact ht byte (List.mem_of_getElem? h) index (by omega)

/-- A control character (Unicode's category `Cc`). -/
def isControl (c : Char) : Bool := c.val ≤ 0x1f || 0x7f ≤ c.val && c.val ≤ 0x9f

/-- A visible ASCII character. -/
def isGraphic (c : Char) : Bool := 0x21 ≤ c.val && c.val ≤ 0x7e

/-- A visible ASCII character is one visible byte. -/
theorem utf8EncodeChar_graphic {c : Char} (h : isGraphic c = true) :
    ∃ byte, String.utf8EncodeChar c = [byte] ∧ isAsciiGraphic byte = true := by
  simp only [isGraphic, Bool.and_eq_true, decide_eq_true_eq, UInt32.le_iff_toNat_le] at h
  have hval : c.val.toNat ≤ 0x7e := h.2
  have hsize : c.utf8Size = 1 := Char.utf8Size_eq_one_iff.mpr
    (UInt32.le_iff_toNat_le.mpr (hval.trans (by decide)))
  refine ⟨_, String.utf8EncodeChar_eq_singleton hsize, ?_⟩
  simp only [isAsciiGraphic, Bool.and_eq_true, decide_eq_true_eq, UInt8.le_iff_toNat_le,
    UInt32.toNat_toUInt8]
  rw [Nat.mod_eq_of_lt (by omega)]
  exact h

/-- A text of at most so many characters, all of them visible ASCII. -/
structure GraphicText (maximum : ℕ) (value : String) : Prop where
  length : value.length ≤ maximum
  chars : value.toList.all isGraphic = true

/-- Two printable texts, one after the other. -/
theorem GraphicText.append {m n : ℕ} {s t : String} (hs : GraphicText m s) (ht : GraphicText n t) :
    GraphicText (m + n) (s ++ t) := by
  have hlength := Nat.add_le_add hs.length ht.length
  refine ⟨by rw [String.length_append]; exact hlength, ?_⟩
  rw [String.toList_append, List.all_append, hs.chars, ht.chars]
  rfl

/-- A printable text fits a greater bound. -/
theorem GraphicText.mono {m n : ℕ} {s : String} (hs : GraphicText m s) (h : m ≤ n) :
    GraphicText n s := ⟨hs.length.trans h, hs.chars⟩

/-- Such a text has as many bytes as characters, all of them visible. -/
theorem GraphicText.boundedBytes {maximum : ℕ} {value : String} (h : GraphicText maximum value)
    (hne : value ≠ "") :
    Library.boundedBytes maximum (fun _ byte => isAsciiGraphic byte) value = true := by
  have hbytes : ∀ chars : List Char, (∀ c ∈ chars, isGraphic c = true) →
      (chars.flatMap String.utf8EncodeChar).length = chars.length ∧
        ∀ byte ∈ chars.flatMap String.utf8EncodeChar, isAsciiGraphic byte = true := by
    intro chars
    induction chars with
    | nil => simp
    | cons c chars ih =>
      intro h
      obtain ⟨byte, hbyte, hgraphic⟩ := utf8EncodeChar_graphic (h c List.mem_cons_self)
      obtain ⟨hlength, hall⟩ := ih fun c hc => h c (List.mem_cons_of_mem _ hc)
      rw [List.flatMap_cons, hbyte, List.length_append, hlength]
      refine ⟨by simp [Nat.add_comm], fun other hother => ?_⟩
      rcases List.mem_append.mp hother with hother | hother
      · obtain rfl := List.mem_singleton.mp hother
        exact hgraphic
      · exact hall other hother
  obtain ⟨hsize, hall⟩ := hbytes value.toList (List.all_eq_true.mp h.chars)
  rw [← asBytes_eq_flatMap, length_asBytes] at hsize
  refine boundedBytes_iff.mpr ⟨hne, ?_, fun byte index hindex => hall byte ?_⟩
  · rw [hsize]
    exact h.length
  · rw [← asBytes_eq_flatMap]
    exact List.mem_of_getElem? hindex

/-! ## Numbers -/

/-- The digits of a number. -/
theorem mem_toDigits {b n : ℕ} (hb : 1 < b) {c : Char} (h : c ∈ Nat.toDigits b n) :
    ∃ d < b, c = d.digitChar := by
  induction n using Nat.strong_induction_on with
  | _ n ih =>
    rw [Nat.toDigits_eq_if hb] at h
    split at h
    · exact ⟨n, by assumption, by simpa using h⟩
    · rcases List.mem_append.mp h with h | h
      · exact ih _ (Nat.div_lt_self (by omega) hb) h
      · exact ⟨n % b, Nat.mod_lt _ (by omega), by simpa using h⟩

/-- A hexadecimal digit is printable. -/
theorem isGraphic_digitChar : ∀ d < 16, isGraphic (Nat.digitChar d) = true := by
  decide

/-- A number in lower case hexadecimal, filled with zeros to a width (`{:0width$x}`). -/
def lowerHex (width n : ℕ) : String :=
  .ofList ((Nat.toDigits 16 n).leftpad width '0')

/-- The decimal form of a number is one of digits. -/
theorem digits_toString {n : ℕ} {c : Char} (h : c ∈ (toString n).toList) : '0' ≤ c ∧ c ≤ '9' := by
  have hdigit : ∀ d < 10, '0' ≤ d.digitChar ∧ d.digitChar ≤ '9' := by decide
  change c ∈ n.repr.toList at h
  rw [Nat.toList_repr] at h
  obtain ⟨d, hd, rfl⟩ := mem_toDigits (by decide) h
  exact hdigit d hd

/-- So are its bytes. -/
theorem isAsciiDigit_toString {n : ℕ} {byte : UInt8} (h : byte ∈ asBytes (toString n)) :
    isAsciiDigit byte = true := by
  have hdigit : ∀ d < 10, (String.utf8EncodeChar d.digitChar).all isAsciiDigit = true := by decide
  rw [asBytes_eq_flatMap] at h
  obtain ⟨c, hc, hbyte⟩ := List.mem_flatMap.mp h
  change c ∈ n.repr.toList at hc
  rw [Nat.toList_repr] at hc
  obtain ⟨d, hd, rfl⟩ := mem_toDigits (by decide) hc
  exact List.all_eq_true.mp (hdigit d hd) byte hbyte

/-- The decimal form of a number. -/
theorem graphicText_toString {n k : ℕ} (hk : 0 < k) (h : n < 10 ^ k) :
    GraphicText k (toString n) := by
  change GraphicText k n.repr
  refine ⟨?_, List.all_eq_true.mpr fun c hc => ?_⟩
  · rw [← String.length_toList, Nat.toList_repr]
    exact (Nat.length_toDigits_le_iff (by decide) hk).mpr h
  · rw [Nat.toList_repr] at hc
    obtain ⟨d, hd, rfl⟩ := mem_toDigits (by decide) hc
    exact isGraphic_digitChar d (by omega)

/-- A number in decimal, filled with zeros to a width (`{:0width$}`). -/
def decimal (width n : ℕ) : String :=
  .ofList ((Nat.toDigits 10 n).leftpad width '0')

/-- Digits filled with zeros have the width that was asked for if that is enough. -/
theorem graphicText_leftpad {base width n : ℕ} (hbase : 1 < base) (hbase' : base ≤ 16)
    (hwidth : 0 < width) (h : n < base ^ width) :
    GraphicText width (.ofList ((Nat.toDigits base n).leftpad width '0')) := by
  have hlength := (Nat.length_toDigits_le_iff hbase hwidth).mpr h
  refine ⟨?_, List.all_eq_true.mpr fun c hc => ?_⟩
  · rw [String.length_ofList, List.length_leftpad]
    exact (max_eq_left hlength).le
  · rw [String.toList_ofList, List.leftpad, List.mem_append] at hc
    rcases hc with hc | hc
    · obtain rfl := List.eq_of_mem_replicate hc
      decide
    · obtain ⟨d, hd, rfl⟩ := mem_toDigits hbase hc
      exact isGraphic_digitChar d (by omega)

/-- A written hexadecimal number is printable. -/
theorem graphicText_lowerHex {width n : ℕ} (hwidth : 0 < width) (h : n < 16 ^ width) :
    GraphicText width (lowerHex width n) :=
  graphicText_leftpad (by decide) (by decide) hwidth h

/-- A written decimal number is printable. -/
theorem graphicText_decimal {width n : ℕ} (hwidth : 0 < width) (h : n < 10 ^ width) :
    GraphicText width (decimal width n) :=
  graphicText_leftpad (by decide) (by decide) hwidth h

/-- A text of visible ASCII has a byte for each character. -/
theorem GraphicText.utf8ByteSize_le {maximum : ℕ} {value : String} (h : GraphicText maximum value) :
    value.utf8ByteSize ≤ maximum := by
  by_cases hne : value = ""
  · simp [hne]
  · exact (boundedBytes_iff.mp (h.boundedBytes hne)).2.1

/-! ## White space -/

/-- A character with Unicode's `White_Space` property. -/
def isWhitespace (c : Char) : Bool :=
  0x09 ≤ c.val && c.val ≤ 0x0d || c.val == 0x20 || c.val == 0x85 || c.val == 0xa0 ||
    c.val == 0x1680 || 0x2000 ≤ c.val && c.val ≤ 0x200a || c.val == 0x2028 || c.val == 0x2029 ||
    c.val == 0x202f || c.val == 0x205f || c.val == 0x3000

/-- A text without the white space at its two ends. -/
def trim (value : String) : String :=
  .ofList ((value.toList.dropWhile isWhitespace).rdropWhile isWhitespace)

/-- A text that is empty once it is trimmed. -/
def isBlank (value : String) : Bool := (trim value).isEmpty

/-- A blank text is one of white space only. -/
theorem isBlank_iff {value : String} :
    isBlank value = true ↔ ∀ c ∈ value.toList, isWhitespace c = true := by
  simp only [isBlank, trim, String.isEmpty_iff, String.ofList_eq_empty_iff,
    List.rdropWhile_eq_nil_iff]
  constructor
  · intro h c hc
    by_contra hns
    have hrest : value.toList.dropWhile isWhitespace ≠ [] := fun h0 =>
      hns (List.dropWhile_eq_nil_iff.mp h0 c hc)
    have hhead := List.head_dropWhile_not isWhitespace hrest
    rw [h _ (List.head_mem hrest)] at hhead
    exact absurd hhead (by simp)
  · exact fun h c hc => h c ((List.dropWhile_sublist _).subset hc)

/-- What is left of a text that is not blank is not blank. -/
theorem isBlank_trim {value : String} (h : isBlank value = false) :
    isBlank (trim value) = false := by
  have hne : (value.toList.dropWhile isWhitespace).rdropWhile isWhitespace ≠ [] := by
    intro hempty
    rw [isBlank, trim, hempty] at h
    cases h
  have hlast := List.rdropWhile_last_not _ _ hne
  rw [Bool.eq_false_iff]
  intro hblank
  refine hlast (isBlank_iff.mp hblank _ ?_)
  rw [trim, String.toList_ofList]
  exact List.getLast_mem hne

example : isBlank " \t\u3000\n" = true := by decide
example : trim "  a b\n" = "a b" := by decide

end Mio.Library
