import Mathlib.Data.Set.Function
import Mathlib.Tactic.NormNum
import Mio.Library.TextSize

/-!
# Digests

A hash of 32 bytes, as a number, that tells apart the contents that are in play. No hash tells all
contents apart, so what is assumed of one is always about a set of them. The hexadecimal form of a
digest determines it (`lowerHex_inj`), and so do its bytes (`digestBytes_inj`).
-/

namespace Mio.Library

/-- A hash without a collision among the contents that are known. -/
structure Digest (known : Set Bytes) where
  hash : Bytes → Fin (2 ^ 256)
  injOn : Set.InjOn hash known

/-- Padding goes before the digits that are there. -/
theorem leftpad_concat {α : Type} (width : ℕ) (a c : α) (chars : List α) :
    (chars ++ [c]).leftpad (width + 1) a = chars.leftpad width a ++ [c] := by
  rw [List.leftpad, List.leftpad, List.length_append, List.length_singleton, Nat.add_sub_add_right,
    List.append_assoc]

/-- The digits of a number at a width are those of its sixteenth, and the last one. -/
theorem leftpad_toDigits {width n : ℕ} (hwidth : 0 < width) :
    (Nat.toDigits 16 n).leftpad (width + 1) '0' =
      (Nat.toDigits 16 (n / 16)).leftpad width '0' ++ [Nat.digitChar (n % 16)] := by
  by_cases hn : n < 16
  · have hzero : n / 16 = 0 := by omega
    have hmod : n % 16 = n := by omega
    have hpad : (['0'] : List Char).leftpad width '0' = List.replicate width '0' := by
      rw [List.leftpad, List.length_singleton, ← List.replicate_succ', Nat.sub_add_cancel hwidth]
    rw [hzero, hmod, Nat.toDigits_of_lt_base hn, Nat.toDigits_zero, hpad, List.leftpad]
    rfl
  · rw [Nat.toDigits_of_base_le (by decide) (by omega), leftpad_concat]

/-- The digits of a width determine the number. -/
theorem leftpad_toDigits_inj {width n m : ℕ} (hwidth : 0 < width) (hn : n < 16 ^ width)
    (hm : m < 16 ^ width)
    (h : (Nat.toDigits 16 n).leftpad width '0' = (Nat.toDigits 16 m).leftpad width '0') :
    n = m := by
  have hdigit : ∀ a < 16, ∀ b < 16, Nat.digitChar a = Nat.digitChar b → a = b := by decide
  induction width generalizing n m with
  | zero => omega
  | succ width ih =>
    cases width with
    | zero =>
      rw [Nat.toDigits_of_lt_base (by omega), Nat.toDigits_of_lt_base (by omega)] at h
      exact hdigit n (by omega) m (by omega) (List.singleton_inj.mp h)
    | succ width =>
      rw [leftpad_toDigits (Nat.succ_pos _), leftpad_toDigits (Nat.succ_pos _)] at h
      obtain ⟨hrest, hlast⟩ := List.append_inj' h rfl
      have hlast := hdigit _ (Nat.mod_lt _ (by decide)) _ (Nat.mod_lt _ (by decide))
        (List.singleton_inj.mp hlast)
      have hdiv : n / 16 = m / 16 := by
        refine ih (Nat.succ_pos _) ?_ ?_ hrest
        · rw [pow_succ] at hn
          omega
        · rw [pow_succ] at hm
          omega
      omega

/-- Numbers that fit the width are written differently. -/
theorem lowerHex_inj {width n m : ℕ} (hwidth : 0 < width) (hn : n < 16 ^ width)
    (hm : m < 16 ^ width) (h : lowerHex width n = lowerHex width m) : n = m :=
  leftpad_toDigits_inj hwidth hn hm (String.ofList_injective h)

/-- A written number has hexadecimal digits only. -/
theorem mem_lowerHex {width n : ℕ} {c : Char} (h : c ∈ (lowerHex width n).toList) :
    ∃ d < 16, c = Nat.digitChar d := by
  rw [lowerHex, String.toList_ofList, List.leftpad, List.mem_append] at h
  rcases h with h | h
  · exact ⟨0, by decide, List.eq_of_mem_replicate h⟩
  · obtain ⟨d, hd, rfl⟩ := mem_toDigits (by decide) h
    exact ⟨d, hd, rfl⟩

/-- The digits of a number that fits its width have a byte each. -/
theorem utf8ByteSize_lowerHex {width n : ℕ} (hwidth : 0 < width) (h : n < 16 ^ width) :
    (lowerHex width n).utf8ByteSize = width := by
  have hdigit : ∀ d < 16, (Nat.digitChar d).utf8Size = 1 := by decide
  have hlength : ((Nat.toDigits 16 n).leftpad width '0').length = width := by
    have hfits := (Nat.length_toDigits_le_iff (by decide) hwidth).mpr h
    rw [List.length_leftpad]
    omega
  have hsizes : ((Nat.toDigits 16 n).leftpad width '0').map Char.utf8Size =
    List.replicate width 1 := by
    refine List.eq_replicate_iff.mpr ⟨by rw [List.length_map, hlength], fun size hsize => ?_⟩
    obtain ⟨c, hc, rfl⟩ := List.mem_map.mp hsize
    have hmem : c ∈ (lowerHex width n).toList := by rwa [lowerHex, String.toList_ofList]
    obtain ⟨d, hd, rfl⟩ := mem_lowerHex hmem
    exact hdigit d hd
  rw [lowerHex, utf8ByteSize_ofList, hsizes, List.sum_replicate_nat, mul_one]

/-- Records whose bytes tell where they end can be put one after the other. -/
theorem flatMap_inj {α : Type} {encode : α → Bytes} {valid : α → Prop} (hne : ∀ a, encode a ≠ [])
    (htell : ∀ a b, valid a → valid b → ∀ x y, encode a ++ x = encode b ++ y → a = b)
    {records others : List α} (hrecords : ∀ a ∈ records, valid a) (hothers : ∀ a ∈ others, valid a)
    (h : records.flatMap encode = others.flatMap encode) : records = others := by
  induction records generalizing others with
  | nil =>
    cases others with
    | nil => rfl
    | cons other others =>
      rw [List.flatMap_nil, List.flatMap_cons] at h
      exact absurd (List.append_eq_nil_iff.mp h.symm).1 (hne other)
  | cons record records ih =>
    cases others with
    | nil =>
      rw [List.flatMap_nil, List.flatMap_cons] at h
      exact absurd (List.append_eq_nil_iff.mp h).1 (hne record)
    | cons other others =>
      rw [List.flatMap_cons, List.flatMap_cons] at h
      rw [List.forall_mem_cons] at hrecords hothers
      obtain rfl := htell record other hrecords.1 hothers.1 _ _ h
      rw [ih hrecords.2 hothers.2 (List.append_cancel_left h)]

/-- The last `width` bytes of a number, the highest first. -/
def toBeBytes : ℕ → ℕ → Bytes
  | 0, _ => []
  | width + 1, n => toBeBytes width (n / 256) ++ [UInt8.ofNat (n % 256)]

/-- The bytes of a digest. -/
def digestBytes (hash : Fin (2 ^ 256)) : Bytes := toBeBytes 32 hash.val

/-- The bytes fill the width. -/
theorem length_toBeBytes (width n : ℕ) : (toBeBytes width n).length = width := by
  induction width generalizing n with
  | zero => rfl
  | succ width ih => rw [toBeBytes, List.length_append, ih, List.length_singleton]

/-- Numbers that fit the width have different bytes. -/
theorem toBeBytes_inj {width n m : ℕ} (hn : n < 256 ^ width) (hm : m < 256 ^ width)
    (h : toBeBytes width n = toBeBytes width m) : n = m := by
  induction width generalizing n m with
  | zero => omega
  | succ width ih =>
    obtain ⟨hrest, hlast⟩ := List.append_inj' h rfl
    have hlast := congrArg UInt8.toNat (List.singleton_inj.mp hlast)
    have hbyte : ∀ k, (UInt8.ofNat (k % 256)).toNat = k % 256 := by
      intro k
      rw [UInt8.toNat_ofNat']
      exact Nat.mod_mod k 256
    rw [hbyte, hbyte] at hlast
    have hdiv : n / 256 = m / 256 := by
      refine ih ?_ ?_ hrest
      · rw [pow_succ] at hn
        omega
      · rw [pow_succ] at hm
        omega
    omega

/-- A digest has 32 bytes. -/
theorem length_digestBytes (hash : Fin (2 ^ 256)) : (digestBytes hash).length = 32 :=
  length_toBeBytes 32 _

/-- The bytes of a digest tell it. -/
theorem digestBytes_inj {hash other : Fin (2 ^ 256)} (h : digestBytes hash = digestBytes other) :
    hash = other := by
  have hpow : 2 ^ 256 = 256 ^ 32 := by norm_num
  exact Fin.ext (toBeBytes_inj (hash.isLt.trans_eq hpow) (other.isLt.trans_eq hpow) h)

end Mio.Library
