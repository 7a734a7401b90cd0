import Mathlib.Data.List.Lex
import Mathlib.Order.Basic
import Mio.Library.Text

/-!
# Numerals of one length, and the last greatest entry

Decimal numerals of the same length are ordered as texts as the numbers that they stand for are
(`lt_iff_ofDigitChars_lt`). So is what differs only in such a numeral, and so are texts of several
numerals of given widths (`fieldsText_lt_iff`). `maxBy` takes the greatest entry of a list in some
order, and the last of those that are equal in it.
-/

namespace Mio.Library

/-! ## Numerals -/

/-- A text of decimal digits. -/
def AllDigits (digits : List Char) : Prop := ∀ c ∈ digits, c.isDigit = true

/-- What a digit stands for. -/
theorem digit_bounds {c : Char} (h : c.isDigit = true) : 48 ≤ c.toNat ∧ c.toNat ≤ 57 := by
  simp only [Char.isDigit, ge_iff_le, Bool.and_eq_true, decide_eq_true_eq] at h
  obtain ⟨hlow, hhigh⟩ := h
  rw [UInt32.le_iff_toNat_le] at hlow hhigh
  exact ⟨hlow, hhigh⟩

/-- The codes of the lower-case letters. -/
theorem lower_bounds {c : Char} (h : c.isLower = true) : 97 ≤ c.toNat ∧ c.toNat ≤ 122 := by
  have hcodes : (decide ('a'.val ≤ c.val) && decide (c.val ≤ 'z'.val)) = true := h
  obtain ⟨hlow, hhigh⟩ := Bool.and_eq_true_iff.mp hcodes
  exact ⟨UInt32.le_iff_toNat_le.mp (of_decide_eq_true hlow),
    UInt32.le_iff_toNat_le.mp (of_decide_eq_true hhigh)⟩

/-- The codes of the upper-case letters. -/
theorem upper_bounds {c : Char} (h : c.isUpper = true) : 65 ≤ c.toNat ∧ c.toNat ≤ 90 := by
  have hcodes : 'A'.val ≤ c.val ∧ c.val ≤ 'Z'.val := of_decide_eq_true h
  exact ⟨UInt32.le_iff_toNat_le.mp hcodes.1, UInt32.le_iff_toNat_le.mp hcodes.2⟩

/-- A letter or digit, by its code. -/
theorem alphanum_bounds {c : Char} (h : c.isAlphanum = true) :
    (65 ≤ c.toNat ∧ c.toNat ≤ 90) ∨ (97 ≤ c.toNat ∧ c.toNat ≤ 122) ∨
      (48 ≤ c.toNat ∧ c.toNat ≤ 57) := by
  have hkinds : ((c.isUpper || c.isLower) || c.isDigit) = true := h
  simp only [Bool.or_eq_true] at hkinds
  obtain (hupper | hlower) | hdigit := hkinds
  · exact .inl (upper_bounds hupper)
  · exact .inr (.inl (lower_bounds hlower))
  · exact .inr (.inr (digit_bounds hdigit))

/-- Characters are ordered by their codes. -/
theorem char_lt_iff {a b : Char} : a < b ↔ a.toNat < b.toNat := Iff.rfl

/-- The first digit of a numeral counts for the power of ten of what follows it. -/
theorem ofDigitChars_cons_zero (c : Char) (rest : List Char) :
    Nat.ofDigitChars 10 (c :: rest) 0 =
      10 ^ rest.length * (c.toNat - 48) + Nat.ofDigitChars 10 rest 0 := by
  have hzero : '0'.toNat = 48 := rfl
  rw [Nat.ofDigitChars_cons, Nat.ofDigitChars_eq_ofDigitChars_zero, hzero, Nat.mul_zero,
    Nat.zero_add]

/-- A numeral stands for a number below the power of ten of its length. -/
theorem ofDigitChars_lt {digits : List Char} (h : AllDigits digits) :
    Nat.ofDigitChars 10 digits 0 < 10 ^ digits.length := by
  induction digits with
  | nil => simp
  | cons c rest ih =>
    have hrest := ih fun d hd => h d (List.mem_cons_of_mem c hd)
    have hdigit := digit_bounds (h c List.mem_cons_self)
    have hle : 10 ^ rest.length * (c.toNat - 48) ≤ 10 ^ rest.length * 9 :=
      Nat.mul_le_mul_left _ (by omega)
    rw [ofDigitChars_cons_zero, List.length_cons, pow_succ]
    omega

/-- Numerals of one length are ordered as their numbers are. -/
theorem lt_iff_ofDigitChars_lt {a b : List Char} (ha : AllDigits a) (hb : AllDigits b)
    (hlength : a.length = b.length) :
    a < b ↔ Nat.ofDigitChars 10 a 0 < Nat.ofDigitChars 10 b 0 := by
  -- By induction on the digits: the first ones decide, unless they are equal.
  induction a generalizing b with
  | nil =>
    obtain rfl : b = [] := List.length_eq_zero_iff.mp hlength.symm
    simp
  | cons c as ih =>
    rcases b with _ | ⟨d, bs⟩
    · simp at hlength
    have has : AllDigits as := fun x hx => ha x (List.mem_cons_of_mem c hx)
    have hbs : AllDigits bs := fun x hx => hb x (List.mem_cons_of_mem d hx)
    have hlength' : as.length = bs.length := by simpa using hlength
    have hc := digit_bounds (ha c List.mem_cons_self)
    have hd := digit_bounds (hb d List.mem_cons_self)
    have hlow := ofDigitChars_lt has
    have hhigh := ofDigitChars_lt hbs
    rw [← hlength'] at hhigh
    rw [List.cons_lt_cons_iff, ih has hbs hlength', ofDigitChars_cons_zero, ofDigitChars_cons_zero,
      ← hlength', char_lt_iff]
    generalize 10 ^ as.length = power at hlow hhigh
    generalize Nat.ofDigitChars 10 as 0 = low at hlow
    generalize Nat.ofDigitChars 10 bs 0 = high at hhigh
    rcases Nat.lt_trichotomy c.toNat d.toNat with hlt | heq | hgt
    · -- The first digits decide.
      have hstep : power * (c.toNat - 48) + power ≤ power * (d.toNat - 48) := by
        rw [← Nat.mul_succ]
        exact Nat.mul_le_mul_left _ (by omega)
      constructor
      · intro
        omega
      · intro
        exact .inl hlt
    · have hchar : c = d := Char.toNat_inj.mp heq
      subst hchar
      simp
    · have hstep : power * (d.toNat - 48) + power ≤ power * (c.toNat - 48) := by
        rw [← Nat.mul_succ]
        exact Nat.mul_le_mul_left _ (by omega)
      have hne : c ≠ d := by
        rintro rfl
        omega
      constructor
      · rintro (hlt | ⟨rfl, -⟩)
        · omega
        · exact absurd rfl hne
      · intro
        omega

/-- Where the first parts have one length, they count before what follows them. -/
theorem append_lt_append {α : Type} [LinearOrder α] {a b rest rest' : List α}
    (hlength : a.length = b.length) : a ++ rest < b ++ rest' ↔ a < b ∨ a = b ∧ rest < rest' := by
  induction a generalizing b with
  | nil =>
    obtain rfl : b = [] := List.length_eq_zero_iff.mp hlength.symm
    simp
  | cons c as ih =>
    rcases b with _ | ⟨d, bs⟩
    · simp at hlength
    have hrest := @ih bs (by simpa using hlength)
    rw [List.cons_append, List.cons_append, List.cons_lt_cons_iff, List.cons_lt_cons_iff, hrest,
      List.cons.injEq]
    constructor
    · rintro (hlt | ⟨hsame, hlt | ⟨hsame', hlt⟩⟩)
      · exact .inl (.inl hlt)
      · exact .inl (.inr ⟨hsame, hlt⟩)
      · exact .inr ⟨⟨hsame, hsame'⟩, hlt⟩
    · rintro ((hlt | ⟨hsame, hlt⟩) | ⟨⟨hsame, hsame'⟩, hlt⟩)
      · exact .inl hlt
      · exact .inr ⟨hsame, .inl hlt⟩
      · exact .inr ⟨hsame, .inr ⟨hsame', hlt⟩⟩

/-- What comes after one and the same part counts alone. -/
theorem append_lt_append_left {α : Type} [LinearOrder α] {before a b : List α} :
    before ++ a < before ++ b ↔ a < b := by
  rw [append_lt_append rfl]
  simp

/-- What differs in a part only is ordered as this part is. -/
theorem append_lt_append_iff {before a b after : List Char} (hlength : a.length = b.length) :
    before ++ a ++ after < before ++ b ++ after ↔ a < b := by
  have hlength' : (before ++ a).length = (before ++ b).length := by
    rw [List.length_append, List.length_append, hlength]
  rw [append_lt_append hlength', append_lt_append_left]
  simp

/-! ## Texts of several numerals -/

/-- The characters of a number that is filled with zeros. -/
theorem toList_decimal (width n : ℕ) :
    (decimal width n).toList = (Nat.toDigits 10 n).leftpad width '0' := String.toList_ofList

section Decimal

variable {width n : ℕ}

/-- A number that fits fills the width. -/
theorem length_decimal (hwidth : 0 < width) (h : n < 10 ^ width) :
    (decimal width n).toList.length = width := by
  have hlength := (Nat.length_toDigits_le_iff (by decide) hwidth).mpr h
  rw [toList_decimal, List.length_leftpad, max_eq_left hlength]

/-- A written number has digits only. -/
theorem allDigits_decimal (width n : ℕ) : AllDigits (decimal width n).toList := by
  have hdigit : ∀ d < 10, d.digitChar.isDigit = true := by decide
  intro c hc
  rw [toList_decimal, List.leftpad, List.mem_append] at hc
  rcases hc with hc | hc
  · obtain rfl := List.eq_of_mem_replicate hc
    rfl
  · obtain ⟨d, hd, rfl⟩ := mem_toDigits (by decide) hc
    exact hdigit d hd

/-- A written number is read back. -/
theorem ofDigitChars_decimal (width n : ℕ) :
    Nat.ofDigitChars 10 (decimal width n).toList 0 = n := by
  rw [toList_decimal, List.leftpad, Nat.ofDigitChars_append, Nat.ofDigitChars_replicate_zero,
    Nat.mul_zero, Nat.ofDigitChars_ten_toDigits]

end Decimal

/-- Numbers in numerals of the widths of a format, each with the mark after it. -/
def fieldsText : List (ℕ × List Char) → List ℕ → List Char
  | (width, mark) :: format, n :: values =>
    (decimal width n).toList ++ (mark ++ fieldsText format values)
  | _, _ => []

/-- The numbers fit in the widths. -/
def FieldsFit : List (ℕ × List Char) → List ℕ → Prop :=
  List.Forall₂ fun field n => 0 < field.1 ∧ n < 10 ^ field.1

/-- Texts of one format are ordered as the lists of their numbers are. -/
theorem fieldsText_lt_iff {format : List (ℕ × List Char)} {values values' : List ℕ}
    (h : FieldsFit format values) (h' : FieldsFit format values') :
    fieldsText format values < fieldsText format values' ↔ values < values' := by
  induction h generalizing values' with
  | nil =>
    cases h'
    simp [fieldsText]
  | @cons field n format values hfield _ ih =>
    cases h' with
    | @cons _ n' _ values' hfield' hvalues' =>
      obtain ⟨width, mark⟩ := field
      have hlength : (decimal width n).toList.length = (decimal width n').toList.length := by
        rw [length_decimal hfield.1 hfield.2, length_decimal hfield'.1 hfield'.2]
      have hlt : (decimal width n).toList < (decimal width n').toList ↔ n < n' := by
        rw [lt_iff_ofDigitChars_lt (allDigits_decimal width n) (allDigits_decimal width n') hlength,
          ofDigitChars_decimal, ofDigitChars_decimal]
      have heq : (decimal width n).toList = (decimal width n').toList ↔ n = n' := by
        constructor
        · intro hsame
          rw [← ofDigitChars_decimal width n, hsame, ofDigitChars_decimal]
        · rintro rfl
          rfl
      rw [fieldsText, fieldsText, append_lt_append hlength, append_lt_append_left, hlt, heq,
        ih hvalues', List.cons_lt_cons_iff]

/-! ## The last greatest entry -/

section MaxBy

variable {α : Type}

/-- The greatest entry, and the last of the greatest ones. -/
def maxBy (cmp : α → α → Ordering) : List α → Option α
  | [] => none
  | first :: rest =>
    some (rest.foldl (fun best entry => if cmp best entry = .gt then best else entry) first)

/-- The greatest entry is one of them, and none is greater. -/
theorem maxBy_spec {cmp : α → α → Ordering} [Std.TransCmp cmp] {entries : List α} {best : α}
    (h : maxBy cmp entries = some best) :
    best ∈ entries ∧ ∀ entry ∈ entries, (cmp entry best).isLE = true := by
  cases entries with
  | nil => cases h
  | cons first rest =>
    rw [maxBy, Option.some.injEq] at h
    induction rest generalizing first with
    | nil =>
      obtain rfl : first = best := h
      refine ⟨List.mem_cons_self, fun entry hentry => ?_⟩
      obtain rfl : entry = first := by simpa using hentry
      have hself : cmp entry entry = .eq := Std.ReflCmp.compare_self
      rw [hself]
      rfl
    | cons second rest ih =>
      rw [List.foldl_cons] at h
      obtain ⟨hmem, hgreatest⟩ := ih _ h
      have hnext := hgreatest _ List.mem_cons_self
      split at hmem
      · next hgt =>
        -- The second entry is below the first one, which stays.
        rw [if_pos hgt] at hnext
        have hsecond : (cmp second first).isLE = true := by
          rw [@Std.OrientedCmp.eq_swap _ cmp, hgt]
          rfl
        refine ⟨?_, fun entry hentry => ?_⟩
        · rcases List.mem_cons.mp hmem with rfl | hmem
          · exact List.mem_cons_self
          · exact List.mem_cons_of_mem _ (List.mem_cons_of_mem _ hmem)
        · rcases List.mem_cons.mp hentry with rfl | hentry
          · exact hnext
          rcases List.mem_cons.mp hentry with rfl | hentry
          · exact Std.TransCmp.isLE_trans hsecond hnext
          · exact hgreatest entry (List.mem_cons_of_mem _ hentry)
      · next hle =>
        rw [if_neg hle] at hnext
        have hfirst : (cmp first second).isLE = true := by
          rcases hcmp : cmp first second with _ | _ | _
          · rfl
          · rfl
          · exact absurd hcmp hle
        refine ⟨List.mem_cons_of_mem _ hmem, fun entry hentry => ?_⟩
        rcases List.mem_cons.mp hentry with rfl | hentry
        · exact Std.TransCmp.isLE_trans hfirst hnext
        · rcases List.mem_cons.mp hentry with rfl | hentry
          · exact hnext
          · exact hgreatest entry (List.mem_cons_of_mem _ hentry)

/-- There is a greatest entry where there is one at all. -/
theorem maxBy_eq_none {cmp : α → α → Ordering} {entries : List α} :
    maxBy cmp entries = none ↔ entries = [] := by
  cases entries with
  | nil => simp [maxBy]
  | cons first rest => simp [maxBy]

end MaxBy

end Mio.Library
