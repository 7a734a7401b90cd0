import Mio.Library.JsonBytes
import Mio.Library.Keyed
import Mio.Library.Numerals
import Mio.Library.Value

/-!
# Derived serialization

How `serde_json` reads and writes a struct whose serialization is derived. It writes an object with
the fields in their order. With `deny_unknown_fields` it reads an object that has every field once
and no other, and also an array with one item for each field. A unit variant is read from its name,
or from an object with that name and `null`.

Reading a text is a parameter (`SerdeJson`). What is assumed of it is that an object of texts and
small numbers is read as it was written (`SerdeJson.ReadsBack`). No two of these have the same text
(`flatText_inj`), so there is such a reader (`SerdeJson.flat`).
-/

namespace Mio.Library

/-- What is written of a value, and the value that a text is read as. -/
structure SerdeJson where
  toVec : Value → Bytes
  fromSlice : Bytes → Option Value

namespace Value

/-- The values of a struct's fields, in the order of the names. -/
def structFields (names : List String) : Value → Option (List Value)
  | .array items => if items.length == names.length then some items else none
  | .object fields =>
    -- A field with another name is refused, and so is one that is there twice.
    if fields.all (fun entry => names.contains entry.1) && decide (fields.map (·.1)).Nodup then
      names.mapM (Value.field fields)
    else none
  | _ => none

/-- The name of a variant without fields. -/
def unitVariant (names : List String) : Value → Option String
  | .string name => if names.contains name then some name else none
  | .object [(name, .null)] => if names.contains name then some name else none
  | _ => none

/-- The value of an enumeration whose variant it names. -/
def asVariant {α : Type} (variants : List α) (name : α → String) (value : Value) : Option α :=
  (value.unitVariant (variants.map name)).bind fun text =>
    variants.find? fun variant => name variant == text

/-- A whole number of 16 bits. -/
def asU16 (value : Value) : Option ℕ := value.asU64.filter fun n => decide (n < 2 ^ 16)

/-- A field that is found is one of the object. -/
theorem field_mem {fields : List (String × Value)} {name : String} {value : Value}
    (h : field fields name = some value) : name ∈ fields.map (·.1) := by
  obtain ⟨entry, hfind, -⟩ := Option.map_eq_some_iff.mp h
  have hname : entry.1 = name := by simpa using List.find?_some hfind
  exact hname ▸ List.mem_map_of_mem (List.mem_of_find?_eq_some hfind)

/-- Fields that are all found are all of the object. -/
theorem mem_of_mapM {fields : List (String × Value)} {names : List String} {values : List Value}
    (h : names.mapM (field fields) = some values) {name : String} (hname : name ∈ names) :
    name ∈ fields.map (·.1) := by
  induction names generalizing values with
  | nil => cases hname
  | cons first names ih =>
    rw [List.mapM_cons] at h
    obtain ⟨value, hvalue, h⟩ := Option.bind_eq_some_iff.mp h
    obtain ⟨rest, hrest, -⟩ := Option.bind_eq_some_iff.mp h
    obtain rfl | hname := List.mem_cons.mp hname
    · exact field_mem hvalue
    · exact ih hrest hname

/-- A value that is read with two lists of names has as many names in both, or the same. -/
theorem structFields_both {names other : List String} {value : Value} {values values' : List Value}
    (h : value.structFields names = some values) (h' : value.structFields other = some values') :
    names.length = other.length ∨ ∀ name, name ∈ names ↔ name ∈ other := by
  unfold structFields at h h'
  cases value with
  -- An array gives the fields by their place, so only the number of the names is known.
  | array items =>
    dsimp only at h h'
    split at h
    · rename_i hlength
      split at h'
      · rename_i hlength'
        exact .inl ((beq_iff_eq.mp hlength).symm.trans (beq_iff_eq.mp hlength'))
      · cases h'
    · cases h
  -- An object gives the fields by their names, so its keys are the names of both.
  | object fields =>
    dsimp only at h h'
    split at h
    · rename_i hnames
      split at h'
      · rename_i hother
        have hknown : ∀ name, name ∈ fields.map (·.1) ↔ name ∈ names := by
          refine fun name => ⟨fun hmem => ?_, mem_of_mapM h⟩
          obtain ⟨entry, hentry, rfl⟩ := List.mem_map.mp hmem
          simpa using List.all_eq_true.mp (Bool.and_eq_true_iff.mp hnames).1 entry hentry
        have hknown' : ∀ name, name ∈ fields.map (·.1) ↔ name ∈ other := by
          refine fun name => ⟨fun hmem => ?_, mem_of_mapM h'⟩
          obtain ⟨entry, hentry, rfl⟩ := List.mem_map.mp hmem
          simpa using List.all_eq_true.mp (Bool.and_eq_true_iff.mp hother).1 entry hentry
        exact .inr fun name => (hknown name).symm.trans (hknown' name)
      · cases h'
    · cases h
  | _ => cases h

/-- What is written of a struct is read as its fields. -/
theorem structFields_object {fields : List (String × Value)}
    (hdistinct : (fields.map (·.1)).Nodup) :
    (Value.object fields).structFields (fields.map (·.1)) = some (fields.map (·.2)) := by
  have hfield : ∀ entry ∈ fields, field fields entry.1 = some entry.2 := by
    intro entry hentry
    have hfind : fields.find? (fun other => other.1 == entry.1) = some entry :=
      find?_key hdistinct hentry
    rw [field, hfind, Option.map_some]
  have hall : ∀ part : List (String × Value),
    (∀ entry ∈ part, field fields entry.1 = some entry.2) →
      (part.map (·.1)).mapM (field fields) = some (part.map (·.2)) := by
    intro part
    induction part with
    | nil => exact fun _ => rfl
    | cons entry part ih =>
      intro hpart
      rw [List.forall_mem_cons] at hpart
      rw [List.map_cons, List.mapM_cons, hpart.1, ih hpart.2]
      rfl
  have hknown : fields.all (fun entry => (fields.map (·.1)).contains entry.1) = true :=
    List.all_eq_true.mpr fun entry hentry => by
      simpa using (⟨entry.2, hentry⟩ : ∃ value, (entry.1, value) ∈ fields)
  rw [structFields, hknown, decide_eq_true hdistinct]
  exact hall fields hfield

/-- The name of a variant is read back as it. -/
theorem asVariant_string {α : Type} {variants : List α} {name : α → String}
    (hdistinct : (variants.map name).Nodup) {variant : α} (h : variant ∈ variants) :
    (Value.string (name variant)).asVariant variants name = some variant := by
  have hnamed : (variants.map name).contains (name variant) = true := by
    simpa using ⟨variant, h, rfl⟩
  have hfind : variants.find? (fun other => name other == name variant) = some variant :=
    find?_key hdistinct h
  rw [asVariant, unitVariant, if_pos hnamed, Option.bind_some, hfind]

/-- A number of 16 bits is read back. -/
theorem asU16_toString {n : ℕ} (h : n < 2 ^ 16) : (Value.number (toString n)).asU16 = some n := by
  have hdigits : (toString n).toList = Nat.toDigits 10 n := Nat.toList_repr
  have hall : (Nat.toDigits 10 n).all Char.isDigit = true := by
    have hdigit : ∀ d < 10, d.digitChar.isDigit = true := by decide
    refine List.all_eq_true.mpr fun c hc => ?_
    obtain ⟨d, hd, rfl⟩ := mem_toDigits (by decide) hc
    exact hdigit d hd
  have hne : (Nat.toDigits 10 n).isEmpty = false := by
    rw [List.isEmpty_eq_false_iff]
    exact Nat.toDigits_ne_nil
  have hvalue : Nat.ofDigitChars 10 (Nat.toDigits 10 n) 0 = n := Nat.ofDigitChars_ten_toDigits
  have hwide : n < 2 ^ 64 := h.trans (by decide)
  have hread : (Value.number (toString n)).asU64 = some n := by
    unfold asU64
    dsimp only
    rw [hdigits, hall, hne, hvalue, if_neg (by decide), if_pos hwide]
  rw [asU16, hread, Option.filter_some, if_pos (decide_eq_true h)]

end Value

/-! ## Texts -/

/-- A text, or a number of 16 bits. -/
def IsScalar (value : Value) : Prop :=
  (∃ text, value = .string text) ∨ ∃ n < 2 ^ 16, value = .number (toString n)

/-- An object of scalars is read as it was written. -/
def SerdeJson.ReadsBack (json : SerdeJson) : Prop :=
  ∀ fields : List (String × Value), (∀ field ∈ fields, IsScalar field.2) →
    json.fromSlice (json.toVec (.object fields)) = some (.object fields)

namespace JsonBytes

/-- The bytes that are written as a mark behind a backslash. -/
def marks : List (UInt8 × UInt8) :=
  [(0x22, 0x22), (0x5c, 0x5c), (0x08, 0x62), (0x09, 0x74), (0x0a, 0x6e), (0x0c, 0x66), (0x0d, 0x72)]

/-- What stands for a byte: the byte, a mark, or its two digits. -/
theorem escapeByte_shape (byte : UInt8) :
    (escapeByte byte = [byte] ∧ byte ≠ 0x5c ∧ byte ≠ 0x22) ∨
      (∃ mark, (byte, mark) ∈ marks ∧ escapeByte byte = [0x5c, mark]) ∨
      byte < 0x20 ∧ escapeByte byte =
        [0x5c, 0x75, 0x30, 0x30, hexDigit (byte.toNat / 16), hexDigit (byte.toNat % 16)] := by
  unfold escapeByte
  split_ifs with hquote hback htab hline hpage hreturn hcontrol
  · obtain hbyte | hbyte := Bool.or_eq_true_iff.mp hquote
    all_goals
      rw [beq_iff_eq.mp hbyte]
      exact .inr (.inl ⟨_, by decide, rfl⟩)
  · exact .inr (.inl ⟨_, by rw [beq_iff_eq.mp hback]; decide, rfl⟩)
  · exact .inr (.inl ⟨_, by rw [beq_iff_eq.mp htab]; decide, rfl⟩)
  · exact .inr (.inl ⟨_, by rw [beq_iff_eq.mp hline]; decide, rfl⟩)
  · exact .inr (.inl ⟨_, by rw [beq_iff_eq.mp hpage]; decide, rfl⟩)
  · exact .inr (.inl ⟨_, by rw [beq_iff_eq.mp hreturn]; decide, rfl⟩)
  · exact .inr (.inr ⟨hcontrol, rfl⟩)
  · simp only [Bool.or_eq_true, beq_iff_eq, not_or] at hquote
    exact .inl ⟨rfl, hquote.2, hquote.1⟩

/-- No short escape is written as a long one. -/
theorem mark_ne {byte mark : UInt8} (h : (byte, mark) ∈ marks) : mark ≠ 0x75 := by
  rintro rfl
  have hnone : (0x75 : UInt8) ∉ marks.map (·.2) := by decide
  exact hnone (List.mem_map_of_mem h)

/-- A mark stands for one byte. -/
theorem mark_inj {a b mark : UInt8} (ha : (a, mark) ∈ marks) (hb : (b, mark) ∈ marks) : a = b := by
  have hdistinct : (marks.map (·.2)).Nodup := by decide
  exact (Prod.mk.inj (List.inj_on_of_nodup_map hdistinct ha hb rfl)).1

/-- Hexadecimal digits are told apart. -/
theorem hexDigit_inj {m n : ℕ} (hm : m < 16) (hn : n < 16)
    (h : hexDigit m = hexDigit n) : m = n := by
  have hall : ∀ m < 16, ∀ n < 16, hexDigit m = hexDigit n → m = n := by decide
  exact hall m hm n hn h

/-- What stands for a byte ends where it says itself. -/
theorem escapeByte_append_inj {a b : UInt8} {x y : Bytes}
    (h : escapeByte a ++ x = escapeByte b ++ y) : a = b ∧ x = y := by
  -- By the shapes of the two escapes: a byte itself, a backslash and a mark, or a backslash, u and
  -- digits.
  obtain ⟨ha, hbacka, -⟩ | ⟨mark, hmark, ha⟩ | ⟨hlowa, ha⟩ := escapeByte_shape a
  · obtain ⟨hb, -⟩ | ⟨mark', -, hb⟩ | ⟨-, hb⟩ := escapeByte_shape b
    · rw [ha, hb] at h
      exact List.cons.inj h
    · rw [ha, hb] at h
      exact absurd (List.cons.inj h).1 hbacka
    · rw [ha, hb] at h
      exact absurd (List.cons.inj h).1 hbacka
  · obtain ⟨hb, hbackb, -⟩ | ⟨mark', hmark', hb⟩ | ⟨-, hb⟩ := escapeByte_shape b
    · rw [ha, hb] at h
      exact absurd (List.cons.inj h).1.symm hbackb
    · rw [ha, hb] at h
      obtain ⟨rfl, hrest⟩ := List.cons.inj (List.cons.inj h).2
      exact ⟨mark_inj hmark hmark', hrest⟩
    · rw [ha, hb] at h
      exact absurd (List.cons.inj (List.cons.inj h).2).1 (mark_ne hmark)
  · obtain ⟨hb, hbackb, -⟩ | ⟨mark', hmark', hb⟩ | ⟨hlowb, hb⟩ := escapeByte_shape b
    · rw [ha, hb] at h
      exact absurd (List.cons.inj h).1.symm hbackb
    · rw [ha, hb] at h
      exact absurd (List.cons.inj (List.cons.inj h).2).1.symm (mark_ne hmark')
    · rw [ha, hb] at h
      have hdigits : hexDigit (a.toNat / 16) :: hexDigit (a.toNat % 16) :: x =
          hexDigit (b.toNat / 16) :: hexDigit (b.toNat % 16) :: y :=
        @List.append_cancel_left _ [0x5c, 0x75, 0x30, 0x30] _ _ h
      -- The two digits give the byte back.
      obtain ⟨hhigh, hdigits⟩ := List.cons.inj hdigits
      obtain ⟨hlow, hrest⟩ := List.cons.inj hdigits
      have hsixteenth : ∀ byte : UInt8, byte.toNat / 16 < 16 := fun byte =>
        Nat.div_lt_of_lt_mul byte.toNat_lt
      have hhigh := hexDigit_inj (hsixteenth a) (hsixteenth b) hhigh
      have hlow := hexDigit_inj (Nat.mod_lt _ (by decide)) (Nat.mod_lt _ (by decide)) hlow
      refine ⟨UInt8.toNat_inj.mp ?_, hrest⟩
      rw [← Nat.div_add_mod a.toNat 16, ← Nat.div_add_mod b.toNat 16, hhigh, hlow]

/-- No byte is written with a quotation mark first. -/
theorem escapeByte_append_ne (byte : UInt8) (x y : Bytes) : escapeByte byte ++ x ≠ 0x22 :: y := by
  intro h
  obtain ⟨hbyte, -, hquote⟩ | ⟨mark, -, hbyte⟩ | ⟨-, hbyte⟩ := escapeByte_shape byte
  · rw [hbyte] at h
    exact hquote (List.cons.inj h).1
  · rw [hbyte] at h
    exact absurd (List.cons.inj h).1 (by decide)
  · rw [hbyte] at h
    exact absurd (List.cons.inj h).1 (by decide)

/-- A string ends at its quotation mark. -/
theorem quoted_append_inj {a b : String} {x y : Bytes} (h : quoted a ++ x = quoted b ++ y) :
    a = b ∧ x = y := by
  have hbytes : ∀ bytes bytes' : Bytes,
      bytes.flatMap escapeByte ++ 0x22 :: x = bytes'.flatMap escapeByte ++ 0x22 :: y →
        bytes = bytes' ∧ x = y := by
    intro bytes
    induction bytes with
    | nil =>
      intro bytes' h
      cases bytes' with
      | nil => exact ⟨rfl, (List.cons.inj h).2⟩
      | cons byte' bytes' =>
        rw [List.flatMap_cons, List.append_assoc] at h
        exact absurd h.symm (escapeByte_append_ne _ _ _)
    | cons byte bytes ih =>
      intro bytes' h
      rw [List.flatMap_cons, List.append_assoc] at h
      cases bytes' with
      | nil => exact absurd h (escapeByte_append_ne _ _ _)
      | cons byte' bytes' =>
        rw [List.flatMap_cons, List.append_assoc] at h
        obtain ⟨rfl, hmore⟩ := escapeByte_append_inj h
        obtain ⟨rfl, hrest⟩ := ih bytes' hmore
        exact ⟨rfl, hrest⟩
  simp only [quoted, List.cons_append, List.append_assoc] at h
  obtain ⟨hsame, hrest⟩ := hbytes _ _ (List.cons.inj h).2
  exact ⟨asBytes_inj hsame, hrest⟩

end JsonBytes

namespace SerdeJson

open JsonBytes

/-- A string or a number, written. -/
def scalarText : Value → Bytes
  | .string text => quoted text
  | .number text => asBytes text
  | _ => []

/-- A field with its name. -/
def entryText (entry : String × Value) : Bytes := quoted entry.1 ++ 0x3a :: scalarText entry.2

/-- An object of scalars. -/
def flatText (fields : List (String × Value)) : Bytes :=
  object (fields.map fun entry => (entry.1, scalarText entry.2))

/-- What follows an entry: further entries, and the end. -/
def laterText : List (String × Value) → Bytes
  | [] => [0x7d]
  | entry :: fields => 0x2c :: (entryText entry ++ laterText fields)

/-- The first entry of an object, and the later ones. -/
theorem flatText_cons (entry : String × Value) (fields : List (String × Value)) :
    flatText (entry :: fields) = 0x7b :: (entryText entry ++ laterText fields) := by
  have hentries : ∀ (fields : List (String × Value)) (entry : String × Value),
      [0x2c].intercalate ((entry :: fields).map entryText) ++ [0x7d] =
        entryText entry ++ laterText fields := by
    intro fields
    induction fields with
    | nil => intro entry; rw [List.map_singleton, List.intercalate_singleton]; rfl
    | cons next fields ih =>
      intro entry
      rw [List.map_cons, List.map_cons, List.intercalate_cons_cons, List.append_assoc,
        List.append_assoc, ← List.map_cons, ih next]
      rfl
  have hmap : (entry :: fields).map (fun field => quoted field.1 ++ 0x3a :: scalarText field.2) =
      (entry :: fields).map entryText := rfl
  rw [flatText, object, List.map_map, List.cons_append]
  exact congrArg _ (hentries fields entry)

/-- What ends a field's value is no digit. -/
theorem laterText_head (fields : List (String × Value)) :
    ∃ c rest, laterText fields = c :: rest ∧ isAsciiDigit c = false := by
  cases fields with
  | nil => exact ⟨_, _, rfl, by decide⟩
  | cons entry fields => exact ⟨_, _, rfl, by decide⟩

/-- A written number ends where the next entry begins. -/
theorem takeWhile_number (n : ℕ) (fields : List (String × Value)) :
    (asBytes (toString n) ++ laterText fields).takeWhile isAsciiDigit = asBytes (toString n) := by
  obtain ⟨c, rest, hlater, hend⟩ := laterText_head fields
  rw [List.takeWhile_append_of_pos fun byte => isAsciiDigit_toString, hlater,
    List.takeWhile_cons_of_neg (by simp [hend]), List.append_nil]

/-- A number does not begin as a string does. -/
theorem number_ne_quoted (n : ℕ) (text : String) (fields : List (String × Value)) (rest : Bytes) :
    asBytes (toString n) ++ laterText fields ≠ quoted text ++ rest := by
  intro h
  have hnone : (asBytes (toString n) ++ laterText fields).takeWhile isAsciiDigit = [] := by
    rw [h]
    rfl
  have hlength : (asBytes (toString n)).length = 0 := by
    rw [← takeWhile_number n fields, hnone]; rfl
  rw [length_asBytes] at hlength
  have hempty : toString n = "" := String.utf8ByteSize_eq_zero_iff.mp hlength
  have hdigits : (toString n).toList = Nat.toDigits 10 n := Nat.toList_repr
  rw [hempty] at hdigits
  exact Nat.toDigits_ne_nil hdigits.symm

/-- A scalar ends where a field does. -/
theorem scalarText_append_inj {value value' : Value} (hvalue : IsScalar value)
    (hvalue' : IsScalar value') {fields fields' : List (String × Value)}
    (h : scalarText value ++ laterText fields = scalarText value' ++ laterText fields') :
    value = value' ∧ laterText fields = laterText fields' := by
  obtain ⟨text, rfl⟩ | ⟨n, -, rfl⟩ := hvalue
  · obtain ⟨text', rfl⟩ | ⟨n', -, rfl⟩ := hvalue'
    · obtain ⟨rfl, hrest⟩ := quoted_append_inj h
      exact ⟨rfl, hrest⟩
    · exact absurd h.symm (number_ne_quoted n' text fields' _)
  · obtain ⟨text', rfl⟩ | ⟨n', -, rfl⟩ := hvalue'
    · exact absurd h (number_ne_quoted n text' fields _)
    · have hsame : asBytes (toString n) = asBytes (toString n') := by
        rw [← takeWhile_number n fields, ← takeWhile_number n' fields']
        exact congrArg _ h
      change asBytes (toString n) ++ _ = asBytes (toString n') ++ _ at h
      rw [hsame] at h
      exact ⟨congrArg Value.number (asBytes_inj hsame), List.append_cancel_left h⟩

/-- The text of an object of scalars determines its fields. -/
theorem flatText_inj {fields fields' : List (String × Value)}
    (hfields : ∀ field ∈ fields, IsScalar field.2) (hfields' : ∀ field ∈ fields', IsScalar field.2)
    (h : flatText fields = flatText fields') : fields = fields' := by
  -- An entry ends where its text does, so the texts behind it agree.
  have hentry : ∀ {entry entry' : String × Value} {later later' : List (String × Value)},
      IsScalar entry.2 → IsScalar entry'.2 →
        entryText entry ++ laterText later = entryText entry' ++ laterText later' →
          entry = entry' ∧ laterText later = laterText later' := by
    intro entry entry' later later' hscalar hscalar' hsame
    simp only [entryText, List.append_assoc, List.cons_append] at hsame
    obtain ⟨hname, hsame⟩ := quoted_append_inj hsame
    obtain ⟨hvalue, hrest⟩ := scalarText_append_inj hscalar hscalar' (List.cons.inj hsame).2
    exact ⟨Prod.ext hname hvalue, hrest⟩
  have hlater : ∀ later later' : List (String × Value), (∀ field ∈ later, IsScalar field.2) →
      (∀ field ∈ later', IsScalar field.2) → laterText later = laterText later' →
        later = later' := by
    intro later
    induction later with
    | nil =>
      intro later' _ _ hsame
      cases later' with
      | nil => rfl
      -- One list is over and the other is not: a bracket against a comma.
      | cons entry' later' => exact absurd (List.cons.inj hsame).1 (by decide)
    | cons entry later ih =>
      intro later' hscalars hscalars' hsame
      cases later' with
      | nil => exact absurd (List.cons.inj hsame).1 (by decide)
      | cons entry' later' =>
        rw [List.forall_mem_cons] at hscalars hscalars'
        obtain ⟨rfl, hrest⟩ := hentry hscalars.1 hscalars'.1 (List.cons.inj hsame).2
        rw [ih later' hscalars.2 hscalars'.2 hrest]
  cases fields with
  | nil =>
    cases fields' with
    | nil => rfl
    | cons entry' fields' =>
      rw [flatText_cons] at h
      exact absurd (List.cons.inj (List.cons.inj h).2).1 (by decide)
  | cons entry fields =>
    rw [flatText_cons] at h
    cases fields' with
    | nil => exact absurd (List.cons.inj (List.cons.inj h).2).1 (by decide)
    | cons entry' fields' =>
      rw [flatText_cons] at h
      rw [List.forall_mem_cons] at hfields hfields'
      obtain ⟨rfl, hrest⟩ := hentry hfields.1 hfields'.1 (List.cons.inj h).2
      rw [hlater fields fields' hfields.2 hfields'.2 hrest]

open Classical in
/-- It writes objects of scalars, and reads what it writes. -/
noncomputable def flat : SerdeJson where
  toVec value :=
    match value with
    | .object fields => flatText fields
    | _ => []
  fromSlice encoded :=
    if h : ∃ fields, (∀ field ∈ fields, IsScalar field.2) ∧ flatText fields = encoded then
      some (.object h.choose)
    else none

/-- The reader of flat objects reads back what is written. -/
theorem flat_readsBack : flat.ReadsBack := by
  intro fields hfields
  have hwritten : ∃ written, (∀ field ∈ written, IsScalar field.2) ∧
      flatText written = flat.toVec (.object fields) := ⟨fields, hfields, rfl⟩
  have hread : flat.fromSlice (flat.toVec (.object fields)) = some (.object hwritten.choose) :=
    dif_pos hwritten
  obtain ⟨hscalars, htext⟩ := hwritten.choose_spec
  rw [hread, flatText_inj hscalars hfields htext]

end SerdeJson

end Mio.Library
