import Mathlib.Algebra.Order.BigOperators.Group.List
import Mathlib.Data.List.Count
import Mathlib.Data.List.Infix
import Mathlib.Data.List.Nodup
import Mio.Library.JsonBytes

/-!
# Sections between tags

A text is put together from lines, and from sections that stand between an opening and a closing
tag, each tag on a line of its own. `occurrences` counts the places of a pattern. A pattern does not
reach over an element that it does not have, so that its places in a text of lines are those in the
lines (`occurrences_intercalate`), and the tags have one place each, at which the text is cut into
its sections, if and only if no section has a tag in it (`framed_iff`). JSON text has the tags that
its strings have: no byte of a tag is escaped (`occurrences_quoted`).
-/

namespace Mio.Library

variable {α : Type} [DecidableEq α]

/-! ## Occurrences -/

/-- The number of places at which the pattern occurs. -/
def occurrences (pattern : List α) : List α → ℕ
  | [] => 0
  | a :: rest => (if pattern <+: a :: rest then 1 else 0) + occurrences pattern rest

/-- What comes before the first place of the pattern, and after it. -/
def cutAt (pattern : List α) : List α → Option (List α × List α)
  | [] => none
  | a :: rest =>
    if pattern <+: a :: rest then some ([], (a :: rest).drop pattern.length)
    else (cutAt pattern rest).map fun (before, after) => (a :: before, after)

variable {pattern text : List α} {a b c : α}

/-- Nothing occurs exactly when the pattern is not in the text. -/
theorem occurrences_eq_zero_iff (hne : pattern ≠ []) :
    occurrences pattern text = 0 ↔ ¬pattern <:+: text := by
  induction text with
  | nil =>
    rw [List.infix_nil]
    exact iff_of_true rfl hne
  | cons a rest ih =>
    rw [occurrences, List.infix_cons_iff]
    by_cases hhere : pattern <+: a :: rest
    · simp [hhere]
    · simp [hhere, ih]

/-- A pattern occurs only where its first element does. -/
theorem occurrences_append_of_head {front : List α} (h : a ∉ front) (tail text : List α) :
    occurrences (a :: tail) (front ++ text) = occurrences (a :: tail) text := by
  induction front with
  | nil => rfl
  | cons b front ih =>
    rw [List.mem_cons, not_or] at h
    have hhere : ¬a :: tail <+: b :: (front ++ text) := fun hprefix =>
      h.1 (List.cons_prefix_cons.mp hprefix).1
    rw [List.cons_append, occurrences, if_neg hhere, Nat.zero_add, ih h.2]

/-- A pattern does not occur where its first letter does not. -/
theorem occurrences_of_head {tail : List α} (h : a ∉ text) : occurrences (a :: tail) text = 0 := by
  have happend := occurrences_append_of_head h tail []
  rwa [List.append_nil] at happend

omit [DecidableEq α] in
/-- A letter that is not in the pattern ends the search for a prefix. -/
theorem prefix_append_separator (hc : c ∉ pattern) (front back : List α) :
    pattern <+: front ++ c :: back ↔ pattern <+: front := by
  constructor
  · intro h
    refine List.prefix_of_prefix_length_le h (List.prefix_append _ _) ?_
    by_contra hlong
    have hmem : c ∈ pattern := by
      obtain ⟨rest, hrest⟩ := h
      have hget := congrArg (fun l => l[front.length]?) hrest
      simp only [List.getElem?_append_right (Nat.le_refl _), Nat.sub_self, List.getElem?_cons_zero,
        List.getElem?_append_left (Nat.lt_of_not_le hlong)] at hget
      exact List.mem_of_getElem? hget
    exact hc hmem
  · exact fun h => h.trans (List.prefix_append _ _)

/-- A pattern does not reach over an element that it does not have. -/
theorem occurrences_append_separator (hne : pattern ≠ []) (hc : c ∉ pattern) (front back : List α) :
    occurrences pattern (front ++ c :: back) = occurrences pattern front +
      occurrences pattern back := by
  induction front with
  | nil =>
    have hhere : ¬pattern <+: c :: back := by
      intro hprefix
      have hempty := (prefix_append_separator hc [] back).mp hprefix
      exact hne (List.prefix_nil.mp hempty)
    have hempty : occurrences pattern ([] : List α) = 0 := rfl
    rw [List.nil_append, hempty, occurrences, if_neg hhere]
  | cons a front ih =>
    have hhere : pattern <+: a :: (front ++ c :: back) ↔ pattern <+: a :: front :=
      prefix_append_separator hc (a :: front) back
    rw [List.cons_append, occurrences, ih, occurrences]
    simp only [hhere, Nat.add_assoc]

/-- A letter before the text that is not in the pattern adds nothing. -/
theorem occurrences_cons_separator (hne : pattern ≠ []) (hc : c ∉ pattern) (text : List α) :
    occurrences pattern (c :: text) = occurrences pattern text := by
  have happend := occurrences_append_separator hne hc [] text
  rwa [List.nil_append, occurrences, Nat.zero_add] at happend

/-- A letter after the text that is not in the pattern adds nothing. -/
theorem occurrences_append_singleton (hne : pattern ≠ []) (hc : c ∉ pattern) (text : List α) :
    occurrences pattern (text ++ [c]) = occurrences pattern text :=
  occurrences_append_separator hne hc text []

/-- The places in a text of lines are those in the lines. -/
theorem occurrences_intercalate (hne : pattern ≠ []) (hc : c ∉ pattern) (lines : List (List α)) :
    occurrences pattern ([c].intercalate lines) = (lines.map (occurrences pattern)).sum := by
  induction lines with
  | nil => rfl
  | cons line lines ih =>
    cases lines with
    | nil => rw [List.intercalate_singleton, List.map_singleton, List.sum_singleton]
    | cons next lines =>
      have happend : line ++ [c] ++ [c].intercalate (next :: lines) =
          line ++ c :: [c].intercalate (next :: lines) := by
        rw [List.append_assoc]
        rfl
      rw [List.intercalate_cons_cons, happend, occurrences_append_separator hne hc, ih,
        List.map_cons (l := next :: lines), List.sum_cons]

/-- More text before has no fewer occurrences. -/
theorem occurrences_le_append (pattern front text : List α) :
    occurrences pattern text ≤ occurrences pattern (front ++ text) := by
  induction front with
  | nil => exact Nat.le_refl _
  | cons a front ih => exact ih.trans (Nat.le_add_left _ _)

/-- A pattern that is in the text occurs. -/
theorem occurrences_pos (hne : pattern ≠ []) (before after : List α) :
    0 < occurrences pattern (before ++ pattern ++ after) := by
  have hzero := mt (occurrences_eq_zero_iff hne).mp (not_not.mpr ⟨before, after, rfl⟩)
  exact Nat.pos_of_ne_zero hzero

/-- Where a pattern has one place, the text is cut at it. -/
theorem cutAt_of_one (hne : pattern ≠ []) {before after : List α}
    (h : occurrences pattern (before ++ pattern ++ after) = 1) :
    cutAt pattern (before ++ pattern ++ after) = some (before, after) := by
  induction before with
  | nil =>
    obtain ⟨a, tail, rfl⟩ := List.exists_cons_of_ne_nil hne
    have hhere : a :: tail <+: a :: (tail ++ after) := ⟨after, rfl⟩
    rw [List.nil_append, List.cons_append, cutAt, if_pos hhere, ← List.cons_append, List.drop_left]
  | cons a before ih =>
    -- There is a place further on, so there is none here.
    have hpos := occurrences_pos hne before after
    rw [List.cons_append, List.cons_append, occurrences] at h
    have hhere : ¬pattern <+: a :: (before ++ pattern ++ after) := by
      intro hhere
      rw [if_pos hhere] at h
      omega
    rw [if_neg hhere, Nat.zero_add] at h
    rw [List.cons_append, List.cons_append, cutAt, if_neg hhere, ih h]
    rfl

omit [DecidableEq α] in
/-- Lines joined around one line. -/
theorem intercalate_append (c : α) (front : List (List α)) (line : List α) (back : List (List α)) :
    [c].intercalate (front ++ line :: back) =
      front.flatMap (· ++ [c]) ++ line ++ back.flatMap (c :: ·) := by
  have hback : ∀ (line : List α) (back : List (List α)),
      [c].intercalate (line :: back) = line ++ back.flatMap (c :: ·) := by
    intro line back
    induction back generalizing line with
    | nil => simp
    | cons next back ih =>
      rw [List.intercalate_cons_cons, ih, List.flatMap_cons, List.append_assoc]
      rfl
  induction front with
  | nil => exact hback line back
  | cons first front ih =>
    have hne : front ++ line :: back ≠ [] := by simp
    rw [List.cons_append, List.intercalate_cons_of_ne_nil hne, ih, List.flatMap_cons]
    simp only [List.append_assoc]

omit [DecidableEq α] in
/-- More lines begin after a separator. -/
theorem intercalate_append_lines (c : α) {front back : List (List α)} (hfront : front ≠ [])
    (hback : back ≠ []) :
    [c].intercalate (front ++ back) = [c].intercalate front ++ c :: [c].intercalate back := by
  obtain ⟨line, lines, rfl⟩ := List.exists_cons_of_ne_nil hback
  induction front with
  | nil => exact absurd rfl hfront
  | cons first front ih =>
    cases front with
    | nil =>
      rw [List.singleton_append, List.intercalate_cons_cons, List.intercalate_singleton,
        List.append_assoc]
      rfl
    | cons next front =>
      rw [List.cons_append, List.cons_append, List.intercalate_cons_cons, ← List.cons_append,
        ih (List.cons_ne_nil _ _), List.intercalate_cons_cons]
      simp only [List.append_assoc]

/-! ## Tags -/

/-- A name between two brackets. -/
def bracketed (left right : α) (name : List α) : List α := left :: name ++ [right]

omit [DecidableEq α] in
/-- A bracketed name is not empty. -/
theorem bracketed_ne_nil (left right : α) (name : List α) : bracketed left right name ≠ [] :=
  List.cons_ne_nil _ _

section Tags

variable {left right : α} {name other : List α}

omit [DecidableEq α] in
/-- A name that ends at its bracket tells it. -/
theorem append_singleton_prefix (hname : right ∉ name) (hother : right ∉ other) :
    name ++ [right] <+: other ++ [right] ↔ name = other := by
  constructor
  · intro h
    have hprefix : name <+: other := by
      have hlong := (List.prefix_append name [right]).trans h
      exact (prefix_append_separator hname other []).mp hlong
    obtain ⟨rest, rfl⟩ := hprefix
    cases rest with
    | nil => rw [List.append_nil]
    | cons b rest =>
      rw [List.append_assoc, List.prefix_append_right_inj, List.cons_append] at h
      obtain ⟨rfl, -⟩ := List.cons_prefix_cons.mp h
      exact absurd (List.mem_append_right name List.mem_cons_self) hother
  · rintro rfl
    exact List.prefix_refl _

/-- A tag has a place in a tag if and only if the names are the same. -/
theorem occurrences_bracketed (hne : left ≠ right) (hleft : left ∉ other) (hname : right ∉ name)
    (hother : right ∉ other) :
    occurrences (bracketed left right name) (bracketed left right other) =
      if name = other then 1 else 0 := by
  have hrest : left ∉ other ++ [right] := by simp [hleft, hne]
  have hhere : bracketed left right name <+: left :: (other ++ [right]) ↔ name = other := by
    rw [bracketed, List.cons_append, List.cons_prefix_cons, append_singleton_prefix hname hother]
    exact and_iff_right rfl
  have hnone : occurrences (bracketed left right name) (other ++ [right]) = 0 :=
    occurrences_of_head hrest
  show occurrences (bracketed left right name) (left :: (other ++ [right])) = _
  rw [occurrences, hnone, Nat.add_zero]
  simp only [hhere]

end Tags

/-- `<name>` -/
def openingTag (name : Bytes) : Bytes := bracketed 0x3c 0x3e name

/-- `</name>` -/
def closingTag (name : Bytes) : Bytes := bracketed 0x3c 0x3e (0x2f :: name)

/-- An opening tag is not empty. -/
theorem openingTag_ne_nil (name : Bytes) : openingTag name ≠ [] := bracketed_ne_nil _ _ _

/-- A closing tag is not empty. -/
theorem closingTag_ne_nil (name : Bytes) : closingTag name ≠ [] := bracketed_ne_nil _ _ _

/-- A lower-case letter or a hyphen. -/
def isNameByte (byte : UInt8) : Bool := byte == 0x2d || 0x61 ≤ byte && byte ≤ 0x7a

/-- A byte of a tag: of its name, a bracket, or the slash. -/
def isTagByte (byte : UInt8) : Bool :=
  byte == 0x3c || byte == 0x3e || byte == 0x2f || isNameByte byte

/-- The name of a section. -/
def TagName (name : Bytes) : Prop := ∀ byte ∈ name, isNameByte byte = true

instance (name : Bytes) : Decidable (TagName name) :=
  decidable_of_iff (name.all isNameByte = true) List.all_eq_true

/-- A byte that no name has is not in this one. -/
theorem TagName.not_mem {name : Bytes} (h : TagName name) {c : UInt8} (hc : isNameByte c = false) :
    c ∉ name := by
  intro hmem
  have hname := h c hmem
  rw [hc] at hname
  exact Bool.false_ne_true hname

/-- An opening or a closing tag. -/
inductive Tag : Bytes → Prop where
  | opening {name : Bytes} (h : TagName name) : Tag (openingTag name)
  | closing {name : Bytes} (h : TagName name) : Tag (closingTag name)

/-- A tag is a bracketed name, with or without a slash. -/
theorem Tag.exists_bracketed {tag : Bytes} (h : Tag tag) :
    ∃ name, tag = bracketed 0x3c 0x3e name ∧ ∀ byte ∈ name, byte = 0x2f ∨
      isNameByte byte = true := by
  cases h with
  | @opening name h => exact ⟨name, rfl, fun byte hmem => .inr (h byte hmem)⟩
  | @closing name h =>
    refine ⟨0x2f :: name, rfl, fun byte hmem => ?_⟩
    rcases List.mem_cons.mp hmem with rfl | hmem
    · exact .inl rfl
    · exact .inr (h byte hmem)

/-- A tag begins with `<`. -/
theorem Tag.exists_cons {tag : Bytes} (h : Tag tag) : ∃ tail, tag = 0x3c :: tail := by
  obtain ⟨name, rfl, -⟩ := h.exists_bracketed
  exact ⟨name ++ [0x3e], rfl⟩

/-- A tag is not empty. -/
theorem Tag.ne_nil {tag : Bytes} (h : Tag tag) : tag ≠ [] := by
  obtain ⟨tail, rfl⟩ := h.exists_cons
  exact List.cons_ne_nil _ _

/-- A tag has only the bytes of tags. -/
theorem Tag.isTagByte_of_mem {tag : Bytes} (h : Tag tag) {byte : UInt8} (hmem : byte ∈ tag) :
    isTagByte byte = true := by
  obtain ⟨name, rfl, hname⟩ := h.exists_bracketed
  rw [bracketed, List.cons_append, List.mem_cons, List.mem_append, List.mem_singleton] at hmem
  rcases hmem with rfl | hinner | rfl
  · rfl
  · rcases hname byte hinner with rfl | hbyte
    · rfl
    · rw [isTagByte, hbyte, Bool.or_true]
  · rfl

/-- A byte that no tag has is not in this one. -/
theorem Tag.not_mem {tag : Bytes} (h : Tag tag) {c : UInt8}
    (hc : isTagByte c = false) : c ∉ tag := by
  intro hmem
  have hbyte := h.isTagByte_of_mem hmem
  rw [hc] at hbyte
  exact Bool.false_ne_true hbyte

/-- A text without the left bracket has no place of a tag. -/
theorem Tag.occurrences_eq_zero {tag : Bytes} (h : Tag tag) {text : Bytes} (htext : 0x3c ∉ text) :
    occurrences tag text = 0 := by
  obtain ⟨tail, rfl⟩ := h.exists_cons
  exact occurrences_of_head htext

/-- A literal of ASCII without the left bracket, from its characters. -/
theorem not_mem_asBytes_ofList {chars : List Char}
    (h : chars.all (fun c => c.val ≤ 0x7f && c != '<') = true) :
    0x3c ∉ asBytes (String.ofList chars) := by
  rw [asBytes_eq_flatMap, String.toList_ofList, List.mem_flatMap]
  rintro ⟨c, hc, hmem⟩
  have hchar := List.all_eq_true.mp h c hc
  rw [Bool.and_eq_true, decide_eq_true_eq, bne_iff_ne] at hchar
  obtain ⟨hascii, hbracket⟩ := hchar
  have hval : c.val.toNat ≤ 0x7f := UInt32.le_iff_toNat_le.mp hascii
  rw [String.utf8EncodeChar_eq_singleton (Char.utf8Size_eq_one_iff.mpr hascii),
    List.mem_singleton] at hmem
  have hbyte : c.val.toNat = 0x3c := by
    have htoNat := congrArg UInt8.toNat hmem
    rw [UInt32.toNat_toUInt8, Nat.mod_eq_of_lt (by omega)] at htoNat
    exact htoNat.symm
  exact hbracket (Char.ext (UInt32.toNat_inj.mp hbyte))

/-- A byte is not in two texts exactly when it is in neither. -/
theorem not_mem_asBytes_append {c : UInt8} {s t : String} :
    c ∉ asBytes (s ++ t) ↔ c ∉ asBytes s ∧ c ∉ asBytes t := by
  rw [asBytes_append, List.mem_append, not_or]

/-! ## Blocks -/

/-- What a text is put together from: lines of text, and sections with a name. -/
inductive Block where
  | text (line : Bytes)
  | framed (name body : Bytes)

/-- The lines of a block. -/
def Block.lines : Block → List Bytes
  | .text line => [line]
  | .framed name body => [openingTag name, body, closingTag name]

/-- The text of the blocks, a line after the other. -/
def renderBlocks (blocks : List Block) : Bytes := [0x0a].intercalate (blocks.flatMap Block.lines)

/-- The names and the bodies of the sections. -/
def sections : List Block → List (Bytes × Bytes)
  | [] => []
  | .text _ :: blocks => sections blocks
  | .framed name body :: blocks => (name, body) :: sections blocks

/-- The section of a name: what is between its tags, without the line breaks. -/
def sectionOf (name text : Bytes) : Option Bytes := do
  let (_, after) ← cutAt (openingTag name) text
  let (lines, _) ← cutAt (closingTag name) after
  return (lines.drop 1).dropLast

/-- Every tag of the sections has one place, and at the tags the text is cut into the sections. -/
def Framed (text : Bytes) (sections : List (Bytes × Bytes)) : Prop :=
  ∀ name body, (name, body) ∈ sections →
    occurrences (openingTag name) text = 1 ∧ occurrences (closingTag name) text = 1 ∧
      sectionOf name text = some body

/-- The lines of text have no bracket, and the sections have different names. -/
structure WellFramed (blocks : List Block) : Prop where
  texts : ∀ line, Block.text line ∈ blocks → 0x3c ∉ line
  names : ∀ name ∈ (sections blocks).map Prod.fst, TagName name
  distinct : ((sections blocks).map Prod.fst).Nodup

/-- The sections are the framed blocks. -/
theorem mem_sections {blocks : List Block} {name body : Bytes} :
    (name, body) ∈ sections blocks ↔ .framed name body ∈ blocks := by
  induction blocks with
  | nil => simp [sections]
  | cons block blocks ih =>
    cases block with
    | text line => simp [sections, ih]
    | framed other inner => simp [sections, ih]

/-- The sections of two lists of blocks. -/
theorem sections_append (blocks more : List Block) :
    sections (blocks ++ more) = sections blocks ++ sections more := by
  induction blocks with
  | nil => rfl
  | cons block blocks ih =>
    cases block with
    | text line => exact ih
    | framed name body => exact congrArg (List.cons (name, body)) ih

/-- More blocks begin on a line of their own. -/
theorem renderBlocks_append {blocks more : List Block} (hne : blocks ≠ []) (hmore : more ≠ []) :
    renderBlocks (blocks ++ more) = renderBlocks blocks ++ 0x0a :: renderBlocks more := by
  have hlines : ∀ {blocks : List Block}, blocks ≠ [] → blocks.flatMap Block.lines ≠ [] := by
    intro blocks hne
    cases blocks with
    | nil => exact absurd rfl hne
    | cons block blocks => cases block <;> simp [Block.lines]
  rw [renderBlocks, List.flatMap_append, intercalate_append_lines _ (hlines hne) (hlines hmore)]
  rfl

/-- The places of a tag are those in the tags of its name, and those in the bodies. -/
theorem occurrences_renderBlocks {blocks : List Block}
    (htexts : ∀ line, Block.text line ∈ blocks → 0x3c ∉ line)
    (hnames : ∀ name ∈ (sections blocks).map Prod.fst, TagName name) {name : Bytes}
    (hright : 0x3e ∉ name) (hline : 0x0a ∉ name) :
    occurrences (bracketed 0x3c 0x3e name) (renderBlocks blocks) =
      ((sections blocks).map Prod.fst).count name +
        (((sections blocks).map Prod.fst).map (List.cons 0x2f)).count name +
        ((sections blocks).map fun (_, body) =>
          occurrences (bracketed 0x3c 0x3e name) body).sum := by
  have hseparator : (0x0a : UInt8) ∉ bracketed 0x3c 0x3e name := by
    simp [bracketed, hline]
  -- A tag has no newline, so it occurs within one line or not at all.
  rw [renderBlocks, occurrences_intercalate (bracketed_ne_nil _ _ _) hseparator]
  induction blocks with
  | nil => rfl
  | cons block blocks ih =>
    have htexts' : ∀ line, Block.text line ∈ blocks → 0x3c ∉ line := fun line hmem =>
      htexts line (List.mem_cons_of_mem _ hmem)
    rw [List.flatMap_cons, List.map_append, List.sum_append]
    cases block with
    | text line =>
      -- A plain line has no opening bracket.
      have hnone : occurrences (bracketed 0x3c 0x3e name) line = 0 :=
        occurrences_of_head (htexts line List.mem_cons_self)
      rw [ih htexts' hnames, Block.lines, List.map_singleton,
        List.sum_singleton, hnone, Nat.zero_add]
      rfl
    | framed other body =>
      rw [sections, List.map_cons, List.forall_mem_cons] at hnames
      -- Of the two tags of a block, the one that closes it has a slash first.
      have hopen : occurrences (bracketed 0x3c 0x3e name) (openingTag other) =
          if name = other then 1 else 0 :=
        occurrences_bracketed (by decide) (hnames.1.not_mem (by decide)) hright
          (hnames.1.not_mem (by decide))
      have hclose : occurrences (bracketed 0x3c 0x3e name) (closingTag other) =
          if name = 0x2f :: other then 1 else 0 := by
        refine occurrences_bracketed (by decide) ?_ hright ?_
        · simpa using hnames.1.not_mem (by decide)
        · simpa using hnames.1.not_mem (by decide)
      rw [ih htexts' hnames.2]
      simp only [Block.lines, sections, List.map_cons, List.map_nil, List.sum_cons, List.sum_nil,
        List.count_cons, hopen, hclose, beq_iff_eq]
      simp only [eq_comm (b := name)]
      omega

/-- Where its tags have one place, a section is cut out. -/
theorem sectionOf_renderBlocks {blocks : List Block} {name body : Bytes}
    (hsection : (name, body) ∈ sections blocks)
    (hopen : occurrences (openingTag name) (renderBlocks blocks) = 1)
    (hclose : occurrences (closingTag name) (renderBlocks blocks) = 1) :
    sectionOf name (renderBlocks blocks) = some body := by
  obtain ⟨front, back, rfl⟩ := List.append_of_mem (mem_sections.mp hsection)
  obtain ⟨before, after, htext⟩ : ∃ before after : Bytes,
      renderBlocks (front ++ .framed name body :: back) =
        before ++ openingTag name ++ (0x0a :: body ++ [0x0a] ++ closingTag name ++ after) := by
    have hlines : (front ++ Block.framed name body :: back).flatMap Block.lines =
        front.flatMap Block.lines ++ openingTag name :: body :: closingTag name ::
          back.flatMap Block.lines := by
      rw [List.flatMap_append, List.flatMap_cons]
      rfl
    rw [renderBlocks, hlines, intercalate_append]
    refine ⟨_, (back.flatMap Block.lines).flatMap (0x0a :: ·), congrArg _ ?_⟩
    simp
  rw [htext] at hopen hclose
  have hafter : occurrences (closingTag name) (0x0a :: body ++ [0x0a] ++ closingTag name ++ after) =
      1 := by
    have hle := occurrences_le_append (closingTag name) (before ++ openingTag name)
      (0x0a :: body ++ [0x0a] ++ closingTag name ++ after)
    have hpos := occurrences_pos (closingTag_ne_nil name) (0x0a :: body ++ [0x0a]) after
    omega
  -- Each tag is there once, so the first cut is at the opening one and the second at the closing
  -- one.
  have hfirst := cutAt_of_one (openingTag_ne_nil name) hopen
  have hsecond := cutAt_of_one (closingTag_ne_nil name) hafter
  show (cutAt (openingTag name) (renderBlocks _)).bind _ = _
  rw [htext, hfirst]
  show (cutAt (closingTag name) _).bind _ = _
  rw [hsecond]
  simp

section Places

variable {blocks : List Block} (h : WellFramed blocks)
include h

/-- A tag of a section has its own place, and those that it has in the bodies. -/
theorem occurrences_tags {name body : Bytes} (hsection : (name, body) ∈ sections blocks) :
    occurrences (openingTag name) (renderBlocks blocks) =
        1 + ((sections blocks).map fun (_, body) => occurrences (openingTag name) body).sum ∧
      occurrences (closingTag name) (renderBlocks blocks) =
        1 + ((sections blocks).map fun (_, body) => occurrences (closingTag name) body).sum := by
  have hname : name ∈ (sections blocks).map Prod.fst := List.mem_map_of_mem hsection
  have hbytes := h.names name hname
  have hright : (0x3e : UInt8) ∉ name := hbytes.not_mem (by decide)
  have hline : (0x0a : UInt8) ∉ name := hbytes.not_mem (by decide)
  have hslash : (0x2f : UInt8) ∉ name := hbytes.not_mem (by decide)
  have hcount : ((sections blocks).map Prod.fst).count name = 1 :=
    List.count_eq_one_of_mem h.distinct hname
  constructor
  · have hnone : (((sections blocks).map Prod.fst).map (List.cons 0x2f)).count name = 0 := by
      refine List.count_eq_zero.mpr fun hmem => ?_
      obtain ⟨other, -, rfl⟩ := List.mem_map.mp hmem
      exact hslash List.mem_cons_self
    have hplaces := occurrences_renderBlocks h.texts h.names hright hline
    rwa [hcount, hnone] at hplaces
  · have hnone : ((sections blocks).map Prod.fst).count (0x2f :: name) = 0 := by
      refine List.count_eq_zero.mpr fun hmem => ?_
      exact (h.names _ hmem).not_mem (by decide) List.mem_cons_self
    have hmapped :
        (((sections blocks).map Prod.fst).map (List.cons 0x2f)).count (0x2f :: name) = 1 := by
      rw [List.count_map_of_injective _ _ List.cons_injective, hcount]
    have hright' : (0x3e : UInt8) ∉ 0x2f :: name := by simpa using hright
    have hline' : (0x0a : UInt8) ∉ 0x2f :: name := by simpa using hline
    have hplaces := occurrences_renderBlocks h.texts h.names hright' hline'
    rwa [hnone, hmapped] at hplaces

/-- The sections are framed if and only if none of them has a tag in it. -/
theorem framed_iff :
    Framed (renderBlocks blocks) (sections blocks) ↔
      ∀ name ∈ (sections blocks).map Prod.fst, ∀ body ∈ (sections blocks).map Prod.snd,
        occurrences (openingTag name) body = 0 ∧ occurrences (closingTag name) body = 0 := by
  constructor
  · intro hframed name hname body hbody
    obtain ⟨⟨name, inner⟩, hsection, rfl⟩ := List.mem_map.mp hname
    obtain ⟨⟨other, body⟩, hother, rfl⟩ := List.mem_map.mp hbody
    obtain ⟨hopen, hclose, -⟩ := hframed name inner hsection
    obtain ⟨hopens, hcloses⟩ := occurrences_tags h hsection
    rw [hopens, Nat.add_eq_left, List.sum_eq_zero_iff] at hopen
    rw [hcloses, Nat.add_eq_left, List.sum_eq_zero_iff] at hclose
    exact ⟨hopen _ (List.mem_map_of_mem hother), hclose _ (List.mem_map_of_mem hother)⟩
  · intro hfree name body hsection
    have hname : name ∈ (sections blocks).map Prod.fst := List.mem_map_of_mem hsection
    obtain ⟨hopens, hcloses⟩ := occurrences_tags h hsection
    have hopen : occurrences (openingTag name) (renderBlocks blocks) = 1 := by
      rw [hopens, Nat.add_eq_left, List.sum_eq_zero_iff, List.forall_mem_map]
      exact fun ⟨_, body⟩ hmem => (hfree name hname body (List.mem_map_of_mem hmem)).1
    have hclose : occurrences (closingTag name) (renderBlocks blocks) = 1 := by
      rw [hcloses, Nat.add_eq_left, List.sum_eq_zero_iff, List.forall_mem_map]
      exact fun ⟨_, body⟩ hmem => (hfree name hname body (List.mem_map_of_mem hmem)).2
    exact ⟨hopen, hclose, sectionOf_renderBlocks hsection hopen hclose⟩

end Places

/-! ## JSON -/

section Json

open JsonBytes

/-- No control character is in a tag. -/
theorem isTagByte_of_lt {byte : UInt8} (h : byte < 0x20) : isTagByte byte = false := by
  have hlt : byte.toNat < 0x20 := UInt8.lt_iff_toNat_lt.mp h
  have hne : ∀ c : UInt8, 0x20 ≤ c.toNat → (byte == c) = false := by
    intro c hc
    rw [beq_eq_false_iff_ne]
    rintro rfl
    omega
  have hle : ¬ 0x61 ≤ byte := by
    rw [UInt8.le_iff_toNat_le]
    show ¬ 0x61 ≤ byte.toNat
    omega
  rw [isTagByte, isNameByte, hne 0x3c (by decide), hne 0x3e (by decide), hne 0x2f (by decide),
    hne 0x2d (by decide), decide_eq_false hle]
  rfl

/-- A byte stands for itself, or it is in no tag, and its escape has no bracket. -/
theorem escapeByte_cases (byte : UInt8) :
    escapeByte byte = [byte] ∨
      isTagByte byte = false ∧ 0x3c ∉ escapeByte byte ∧ ∃ rest, escapeByte byte = 0x5c :: rest := by
  have hdigit : ∀ n < 16, 0x3c ≠ hexDigit n := by decide
  unfold escapeByte
  split_ifs with hquote hback htab hline hpage hreturn hcontrol
  · rcases Bool.or_eq_true_iff.mp hquote with hbyte | hbyte
    all_goals
      rw [beq_iff_eq.mp hbyte]
      exact .inr ⟨by decide, by decide, _, rfl⟩
  · rw [beq_iff_eq.mp hback]
    exact .inr ⟨by decide, by decide, _, rfl⟩
  · rw [beq_iff_eq.mp htab]
    exact .inr ⟨by decide, by decide, _, rfl⟩
  · rw [beq_iff_eq.mp hline]
    exact .inr ⟨by decide, by decide, _, rfl⟩
  · rw [beq_iff_eq.mp hpage]
    exact .inr ⟨by decide, by decide, _, rfl⟩
  · rw [beq_iff_eq.mp hreturn]
    exact .inr ⟨by decide, by decide, _, rfl⟩
  · refine .inr ⟨isTagByte_of_lt hcontrol, ?_, _, rfl⟩
    have hhigh : byte.toNat / 16 < 16 := Nat.div_lt_of_lt_mul byte.toNat_lt
    have hlow : byte.toNat % 16 < 16 := Nat.mod_lt _ (by decide)
    simp [hdigit _ hhigh, hdigit _ hlow]
  · exact .inl rfl

/-- A number has no bracket. -/
theorem not_mem_toString (n : ℕ) : 0x3c ∉ asBytes (toString n) := by
  intro hmem
  have hdigit := isAsciiDigit_toString hmem
  exact absurd hdigit (by decide)

/-- A beginning of the escaped text without an escape is one of the text. -/
theorem prefix_flatMap_escapeByte {front : Bytes} (hfront : ∀ byte ∈ front, isTagByte byte = true)
    (bytes : Bytes) : front <+: bytes.flatMap escapeByte ↔ front <+: bytes := by
  induction front generalizing bytes with
  | nil => exact iff_of_true List.nil_prefix List.nil_prefix
  | cons b front ih =>
    rw [List.forall_mem_cons] at hfront
    cases bytes with
    | nil => rfl
    | cons byte bytes =>
      rw [List.flatMap_cons]
      rcases escapeByte_cases byte with hself | ⟨hbyte, -, rest, hescape⟩
      · rw [hself, List.singleton_append, List.cons_prefix_cons, List.cons_prefix_cons,
          ih hfront.2]
      · rw [hescape, List.cons_append, List.cons_prefix_cons, List.cons_prefix_cons]
        have hback : b ≠ 0x5c := by
          rintro rfl
          exact absurd hfront.1 (by decide)
        have hother : b ≠ byte := by
          rintro rfl
          rw [hbyte] at hfront
          exact Bool.false_ne_true hfront.1
        exact iff_of_false (fun hprefix => hback hprefix.1) (fun hprefix => hother hprefix.1)

variable {tag : Bytes} (h : Tag tag)
include h

/-- Escapes neither make nor hide a tag. -/
theorem occurrences_escaped (bytes : Bytes) :
    occurrences tag (bytes.flatMap escapeByte) = occurrences tag bytes := by
  induction bytes with
  | nil => rfl
  | cons byte bytes ih =>
    rw [List.flatMap_cons]
    rcases escapeByte_cases byte with hself | ⟨hbyte, hescape, -⟩
    · have hhere : tag <+: byte :: bytes.flatMap escapeByte ↔ tag <+: byte :: bytes := by
        have hprefix := prefix_flatMap_escapeByte (fun _ => h.isTagByte_of_mem) (byte :: bytes)
        rwa [List.flatMap_cons, hself] at hprefix
      rw [hself, List.singleton_append, occurrences, ih, occurrences]
      simp only [hhere]
    · have hne : byte ≠ 0x3c := by
        rintro rfl
        exact absurd hbyte (by decide)
      obtain ⟨tail, rfl⟩ := h.exists_cons
      have hhere : ¬0x3c :: tail <+: byte :: bytes := fun hprefix =>
        hne (List.cons_prefix_cons.mp hprefix).1.symm
      rw [occurrences_append_of_head hescape _ _, ih, occurrences, if_neg hhere, Nat.zero_add]

/-- A string has the places that its text has. -/
theorem occurrences_quoted (value : String) :
    occurrences tag (quoted value) = occurrences tag (asBytes value) := by
  have hquote : (0x22 : UInt8) ∉ tag := h.not_mem (by decide)
  rw [quoted, occurrences_append_singleton h.ne_nil hquote,
    occurrences_cons_separator h.ne_nil hquote, occurrences_escaped h]

/-- The tags in an array are those in its items. -/
theorem occurrences_array (items : List Bytes) :
    occurrences tag (array items) = (items.map (occurrences tag)).sum := by
  rw [array, occurrences_append_singleton h.ne_nil (h.not_mem (by decide)),
    occurrences_cons_separator h.ne_nil (h.not_mem (by decide)),
    occurrences_intercalate h.ne_nil (h.not_mem (by decide))]

/-- The tags in an object are those in its names and values. -/
theorem occurrences_object (fields : List (String × Bytes)) :
    occurrences tag (object fields) = (fields.map fun field =>
      occurrences tag (asBytes field.1) + occurrences tag field.2).sum := by
  rw [object, occurrences_append_singleton h.ne_nil (h.not_mem (by decide)),
    occurrences_cons_separator h.ne_nil (h.not_mem (by decide)),
    occurrences_intercalate h.ne_nil (h.not_mem (by decide)), List.map_map]
  refine congrArg List.sum (List.map_congr_left fun field _ => ?_)
  show occurrences tag (quoted field.1 ++ 0x3a :: field.2) = _
  rw [occurrences_append_separator h.ne_nil (h.not_mem (by decide)), occurrences_quoted h]

end Json

end Mio.Library
