import Mio.Library.Keyed
import Mio.Library.Text

/-!
# Serialization

A serializer and a deserializer of one type. What a program relies on is that a value comes back
from its own encoding, and that an encoding is not empty (`Serde.RoundTrips`). A finite table of
values with their encodings is an instance (`Serde.table`), which refuses every other value, and so
is any encoding that tells the values apart (`Serde.ofEncoding`). The encodings can be written as
JSON text (`Json`).
-/

namespace Mio.Library

/-- A serializer, which can fail, and a deserializer. -/
structure Serde (α : Type) where
  toVec : α → Option Bytes
  fromSlice : Bytes → Option α

namespace Serde

variable {α : Type}

/-- What is serialized is not empty, and it comes back. -/
def RoundTrips (serde : Serde α) : Prop :=
  ∀ a body, serde.toVec a = some body → body ≠ [] ∧ serde.fromSlice body = some a

/-- The serializer of the values in a table. -/
def table [DecidableEq α] (rows : List (α × Bytes)) : Serde α where
  toVec a := (rows.find? fun row => row.1 == a).map (·.2)
  fromSlice body := (rows.find? fun row => row.2 == body).map (·.1)

/-- A table whose encodings are distinct and not empty is one that round trips. -/
theorem table_roundTrips [DecidableEq α] {rows : List (α × Bytes)}
    (hdistinct : (rows.map (·.2)).Nodup) (hne : ∀ row ∈ rows, row.2 ≠ []) :
    (table rows).RoundTrips := by
  intro a body h
  obtain ⟨row, hfind, rfl⟩ := Option.map_eq_some_iff.mp h
  have hmem := List.mem_of_find?_eq_some hfind
  have hkey : row.1 = a := by simpa using List.find?_some hfind
  refine ⟨hne row hmem, ?_⟩
  have hback : rows.find? (fun other => other.2 == row.2) = some row := find?_key hdistinct hmem
  simp [table, hback, hkey]

open Classical in
/-- The serializer with a given encoding. It reads back what has one. -/
noncomputable def ofEncoding (toVec : α → Option Bytes) : Serde α where
  toVec := toVec
  fromSlice body := if h : ∃ a, toVec a = some body then some h.choose else none

/-- It round trips if no two values have the same encoding, and none is empty. -/
theorem ofEncoding_roundTrips {toVec : α → Option Bytes}
    (hne : ∀ a, toVec a ≠ some [])
    (hinj : ∀ a b body, toVec a = some body → toVec b = some body → a = b) :
    (ofEncoding toVec).RoundTrips := by
  intro a body h
  have hsome : ∃ a, toVec a = some body := ⟨a, h⟩
  refine ⟨?_, ?_⟩
  · rintro rfl
    exact hne a h
  · unfold ofEncoding
    dsimp only
    rw [dif_pos hsome]
    exact congrArg some (hinj _ _ body hsome.choose_spec h)

end Serde

/-! ## JSON text -/

namespace Json

/-- A string without characters that need an escape. -/
def string (value : String) : String := "\"" ++ value ++ "\""

/-- A JSON array. -/
def array (items : List String) : String := "[" ++ ",".intercalate items ++ "]"

/-- A JSON array of strings. -/
def strings (items : List String) : String := array (items.map string)

/-- An object, from the names of its fields and the text of their values. -/
def object (fields : List (String × String)) : String :=
  "\x7b" ++ ",".intercalate (fields.map fun (name, value) => string name ++ ":" ++ value) ++ "\x7d"

/-- Of a text without a quotation mark and what follows the next one, both can be told. -/
theorem append_quote_inj {a b x y : List Char} (ha : '"' ∉ a) (hb : '"' ∉ b)
    (h : a ++ ("\"".toList ++ x) = b ++ ("\"".toList ++ y)) : a = b ∧ x = y := by
  change a ++ '"' :: x = b ++ '"' :: y at h
  induction a generalizing b with
  | nil =>
    cases b with
    | nil => exact ⟨rfl, by simpa using h⟩
    | cons d b =>
      rw [List.nil_append, List.cons_append, List.cons.injEq] at h
      exact absurd (h.1 ▸ List.mem_cons_self) hb
  | cons c a ih =>
    cases b with
    | nil =>
      rw [List.nil_append, List.cons_append, List.cons.injEq] at h
      exact absurd (h.1 ▸ List.mem_cons_self) ha
    | cons d b =>
      rw [List.cons_append, List.cons_append, List.cons.injEq] at h
      obtain ⟨rfl, h⟩ := h
      obtain ⟨rfl, rfl⟩ := ih (fun hc => ha (List.mem_cons_of_mem _ hc))
        (fun hd => hb (List.mem_cons_of_mem _ hd)) h
      exact ⟨rfl, rfl⟩

/-- The size of a joined text, by the size of its parts. -/
theorem utf8ByteSize_intercalate_le {items : List String} {n : ℕ}
    (h : ∀ item ∈ items, item.utf8ByteSize ≤ n) :
    (",".intercalate items).utf8ByteSize ≤ items.length * (n + 1) := by
  induction items with
  | nil => simp
  | cons item items ih =>
    have hitem := h item List.mem_cons_self
    have hrest := ih fun other hother => h other (List.mem_cons_of_mem _ hother)
    cases items with
    | nil =>
      rw [String.intercalate_singleton]
      simp only [List.length_singleton]
      omega
    | cons other items =>
      have hcomma : ",".utf8ByteSize = 1 := rfl
      rw [String.intercalate_cons_cons, String.utf8ByteSize_append, String.utf8ByteSize_append,
        hcomma, List.length_cons, Nat.succ_mul]
      omega

/-- A string is written with two quotation marks. -/
theorem utf8ByteSize_string (value : String) :
    (string value).utf8ByteSize = value.utf8ByteSize + 2 := by
  have hquote : "\"".utf8ByteSize = 1 := rfl
  rw [string, String.utf8ByteSize_append, String.utf8ByteSize_append, hquote]
  omega

/-- An object is as large as its names and values, and the marks around them. -/
theorem utf8ByteSize_object_le (fields : List (String × String)) :
    (object fields).utf8ByteSize ≤
      (fields.map fun field => field.1.utf8ByteSize + field.2.utf8ByteSize + 4).sum + 2 := by
  have hopen : "\x7b".utf8ByteSize = 1 := rfl
  have hclose : "\x7d".utf8ByteSize = 1 := rfl
  have hcolon : ":".utf8ByteSize = 1 := rfl
  have hcomma : ",".utf8ByteSize = 1 := rfl
  have hfields : (",".intercalate (fields.map fun (name, value) =>
      string name ++ ":" ++ value)).utf8ByteSize ≤
        (fields.map fun field => field.1.utf8ByteSize + field.2.utf8ByteSize + 4).sum := by
    induction fields with
    | nil => simp
    | cons field fields ih =>
      obtain ⟨name, value⟩ := field
      rw [List.map_cons, List.map_cons, List.sum_cons]
      cases fields with
      -- The last field has no comma after it.
      | nil =>
        rw [List.map_nil, String.intercalate_singleton, String.utf8ByteSize_append,
          String.utf8ByteSize_append, utf8ByteSize_string, hcolon]
        simp only [List.map_nil, List.sum_nil]
        omega
      | cons other fields =>
        rw [List.map_cons, String.intercalate_cons_cons, String.utf8ByteSize_append,
          String.utf8ByteSize_append, String.utf8ByteSize_append, String.utf8ByteSize_append,
          utf8ByteSize_string, hcolon, hcomma]
        rw [List.map_cons] at ih
        dsimp only at ih ⊢
        omega
  rw [object, String.utf8ByteSize_append, String.utf8ByteSize_append, hopen, hclose]
  omega

end Json

end Mio.Library
