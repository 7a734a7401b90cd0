import Mathlib.Tactic.NormNum
import Mio.Core.Conductor
import Mio.Library.TextSize

/-!
# Stable identifiers

What an identifier of `stable_identifier` tells of the parts that it was derived from. The bytes
that are hashed determine the parts (`hashedBytes_inj`), since each part is preceded by its length.
The identifier determines the two hashes of these bytes, and nothing more
(`stableIdentifier_eq_iff`).
-/

namespace Mio.Core.Conductor

open Library

/-! ## What is hashed -/

/-- The bytes that are hashed: each part, preceded by its length. -/
def hashedBytes (parts : List String) : Bytes :=
  parts.flatMap fun part => toLeBytes part.utf8ByteSize.toUInt64 ++ asBytes part

/-- A word has eight bytes. -/
theorem length_toLeBytes (n : UInt64) : (toLeBytes n).length = 8 := by simp [toLeBytes]

/-- A number has one representation. -/
theorem toLeBytes_inj {n m : UInt64} (h : toLeBytes n = toLeBytes m) : n = m := by
  have hbyte (i : ℕ) (hi : i < 8) : n.toNat / 256 ^ i % 256 = m.toNat / 256 ^ i % 256 := by
    have hget := congrArg (fun bytes : Bytes => (bytes[i]?).map UInt8.toNat) h
    have hshift : 8 * i % 64 = 8 * i := by omega
    have hpow : 256 ^ i = 2 ^ (8 * i) := by
      rw [pow_mul]
      norm_num
    rw [hpow]
    simpa [toLeBytes, hi, Nat.shiftRight_eq_div_pow, hshift] using hget
  have h0 := hbyte 0 (by decide)
  have h1 := hbyte 1 (by decide)
  have h2 := hbyte 2 (by decide)
  have h3 := hbyte 3 (by decide)
  have h4 := hbyte 4 (by decide)
  have h5 := hbyte 5 (by decide)
  have h6 := hbyte 6 (by decide)
  have h7 := hbyte 7 (by decide)
  have hn := n.toNat_lt
  have hm := m.toNat_lt
  refine UInt64.toNat_inj.mp ?_
  norm_num at h0 h1 h2 h3 h4 h5 h6 h7 hn hm
  omega

/-- The hashed bytes determine the parts. -/
theorem hashedBytes_inj {parts parts' : List String}
    (hsize : ∀ part ∈ parts, part.utf8ByteSize < 2 ^ 64)
    (hsize' : ∀ part ∈ parts', part.utf8ByteSize < 2 ^ 64)
    (h : hashedBytes parts = hashedBytes parts') : parts = parts' := by
  induction parts generalizing parts' with
  | nil =>
    cases parts' with
    | nil => rfl
    | cons part' rest' =>
      have hlength := congrArg List.length h
      simp only [hashedBytes, List.flatMap_cons, List.flatMap_nil, List.length_append,
        length_toLeBytes, List.length_nil] at hlength
      omega
  | cons part rest ih =>
    cases parts' with
    | nil =>
      have hlength := congrArg List.length h
      simp only [hashedBytes, List.flatMap_cons, List.flatMap_nil, List.length_append,
        length_toLeBytes, List.length_nil] at hlength
      omega
    | cons part' rest' =>
      rw [List.forall_mem_cons] at hsize hsize'
      simp only [hashedBytes, List.flatMap_cons, List.append_assoc] at h
      -- The lengths come first and have one width, so they agree, and then so do the parts.
      obtain ⟨hlength, h⟩ := List.append_inj h (by simp only [length_toLeBytes])
      have hsizes : part.utf8ByteSize = part'.utf8ByteSize := by
        have heq := congrArg UInt64.toNat (toLeBytes_inj hlength)
        simp only [Nat.toUInt64_eq, UInt64.toNat_ofNat'] at heq
        rwa [Nat.mod_eq_of_lt hsize.1, Nat.mod_eq_of_lt hsize'.1] at heq
      obtain ⟨hpart, h⟩ := List.append_inj h (by simpa only [length_asBytes] using hsizes)
      rw [asBytes_inj hpart, ih hsize.2 hsize'.2 h]

/-! ## What an identifier shows -/

/-- The two hashes of an identifier's bytes. -/
def lanes (bytes : Bytes) : UInt64 × UInt64 :=
  (bytes.foldl fnvStep 0xcbf29ce484222325,
    bytes.foldl (fun state byte => fnvStep state (byte ^^^ 0xa5)) 0x84222325cbf29ce4)

/-- A stable identifier is its prefix and the two hashes, in hexadecimal. -/
theorem stableIdentifier_eq (pref : String) (parts : List String) :
    stableIdentifier pref parts = pref ++ ("-" ++
      (lowerHex16 (lanes (hashedBytes parts)).1 ++ lowerHex16 (lanes (hashedBytes parts)).2)) :=
  rfl

/-- Numbers with the same last `count` hexadecimal digits agree modulo `16 ^ count`. -/
theorem mod_eq_of_digits {n m count : ℕ}
    (h : ∀ i < count, n / 16 ^ i % 16 = m / 16 ^ i % 16) : n % 16 ^ count = m % 16 ^ count := by
  induction count with
  | zero => simp [Nat.mod_one]
  | succ count ih =>
    have hlast := h count (by omega)
    rw [Nat.mod_pow_succ, Nat.mod_pow_succ, ih fun i hi => h i (by omega), hlast]

/-- Hexadecimal digits that look the same are the same. -/
theorem digitChar_inj : ∀ a < 16, ∀ b < 16, Nat.digitChar a = Nat.digitChar b → a = b := by decide

/-- Sixteen digits determine the number. -/
theorem lowerHex16_inj {n m : UInt64} (h : lowerHex16 n = lowerHex16 m) : n = m := by
  have hlist := String.ofList_injective h
  have hdigits : n.toNat % 16 ^ 16 = m.toNat % 16 ^ 16 := by
    refine mod_eq_of_digits fun i hi => ?_
    have hget := congrArg (fun digits : List Char => digits[15 - i]?) hlist
    have hindex : 15 - (15 - i) = i := by omega
    have hchar : Nat.digitChar (n.toNat / 16 ^ i % 16) = Nat.digitChar (m.toNat / 16 ^ i % 16) := by
      simpa [hindex, show 15 - i < 16 by omega] using hget
    exact digitChar_inj _ (Nat.mod_lt _ (by decide)) _ (Nat.mod_lt _ (by decide)) hchar
  have hn : n.toNat < 16 ^ 16 := n.toNat_lt
  have hm : m.toNat < 16 ^ 16 := m.toNat_lt
  rw [Nat.mod_eq_of_lt hn, Nat.mod_eq_of_lt hm] at hdigits
  exact UInt64.toNat_inj.mp hdigits

/-- A hash has sixteen digits. -/
theorem utf8ByteSize_lowerHex16 (n : UInt64) : (lowerHex16 n).utf8ByteSize = 16 := by
  have hdigit : ∀ d < 16, (Nat.digitChar d).utf8Size = 1 := by decide
  have hmap : ((List.range 16).map fun i => Nat.digitChar (n.toNat / 16 ^ (15 - i) % 16)).map
      Char.utf8Size = List.replicate 16 1 := by
    refine List.eq_replicate_iff.mpr ⟨by simp, fun size hsize => ?_⟩
    obtain ⟨c, hc, rfl⟩ := List.mem_map.mp hsize
    obtain ⟨i, -, rfl⟩ := List.mem_map.mp hc
    exact hdigit _ (Nat.mod_lt _ (by decide))
  rw [lowerHex16, utf8ByteSize_ofList, hmap]
  rfl

/-- An identifier has thirty-three bytes past its kind. -/
theorem utf8ByteSize_stableIdentifier (pref : String) (parts : List String) :
    (stableIdentifier pref parts).utf8ByteSize = pref.utf8ByteSize + 33 := by
  have hdash : "-".utf8ByteSize = 1 := rfl
  rw [stableIdentifier_eq, String.utf8ByteSize_append, String.utf8ByteSize_append,
    String.utf8ByteSize_append, utf8ByteSize_lowerHex16, utf8ByteSize_lowerHex16, hdash]

/-- Each of them is an ASCII letter or digit. -/
theorem isAsciiAlphanumeric_lowerHex16 {n : UInt64} {byte : UInt8}
    (h : byte ∈ asBytes (lowerHex16 n)) : isAsciiAlphanumeric byte = true := by
  rw [asBytes_eq_flatMap] at h
  obtain ⟨c, hc, hbyte⟩ := List.mem_flatMap.mp h
  rw [lowerHex16, String.toList_ofList] at hc
  obtain ⟨i, -, rfl⟩ := List.mem_map.mp hc
  exact List.all_eq_true.mp (isAsciiAlphanumeric_digitChar _ (Nat.mod_lt _ (by decide))) byte hbyte

/-- An identifier of a short kind is valid. -/
theorem validIdentifier_stableIdentifier {pref : String} (parts : List String)
    (hpref : validIdentifier pref = true)
    (hsize : pref.utf8ByteSize + 33 ≤ maximumIdentifierBytes) :
    validIdentifier (stableIdentifier pref parts) = true := by
  have hlength := utf8ByteSize_stableIdentifier pref parts
  rw [stableIdentifier_eq, String.utf8ByteSize_append] at hlength
  rw [stableIdentifier_eq]
  refine boundedBytes_append hpref (by omega) fun byte hbyte index hindex => ?_
  rw [asBytes_append, asBytes_append, List.mem_append, List.mem_append] at hbyte
  rcases hbyte with hdash | hfirst | hsecond
  · have hdash' : byte = 0x2d := by simpa [show asBytes "-" = [0x2d] by decide] using hdash
    simp [hdash', hindex]
  · simp [isAsciiAlphanumeric_lowerHex16 hfirst]
  · simp [isAsciiAlphanumeric_lowerHex16 hsecond]

/-- Texts can be taken apart again where their first parts have one length. -/
theorem string_append_inj {s t u v : String} (h : s ++ t = u ++ v)
    (hsize : s.utf8ByteSize = u.utf8ByteSize) : s = u ∧ t = v := by
  have hbytes := congrArg asBytes h
  rw [asBytes_append, asBytes_append] at hbytes
  obtain ⟨hs, ht⟩ := List.append_inj hbytes (by simpa only [length_asBytes] using hsize)
  exact ⟨asBytes_inj hs, asBytes_inj ht⟩

/-- Two identifiers of one kind are equal exactly when both hashes are. -/
theorem stableIdentifier_eq_iff {pref : String} {parts parts' : List String} :
    stableIdentifier pref parts = stableIdentifier pref parts' ↔
      lanes (hashedBytes parts) = lanes (hashedBytes parts') := by
  constructor
  · intro h
    rw [stableIdentifier_eq, stableIdentifier_eq] at h
    obtain ⟨-, h⟩ := string_append_inj h rfl
    obtain ⟨-, h⟩ := string_append_inj h rfl
    obtain ⟨hfirst, hsecond⟩ := string_append_inj h (by simp only [utf8ByteSize_lowerHex16])
    exact Prod.ext (lowerHex16_inj hfirst) (lowerHex16_inj hsecond)
  · intro h
    rw [stableIdentifier_eq, stableIdentifier_eq, h]

end Mio.Core.Conductor
