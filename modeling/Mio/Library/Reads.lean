import Mathlib.Data.List.Basic

/-!
# Reading through a buffer

A source gives its elements in reads of any sizes, and a program takes them through a buffer: up to
a stop (`Source.readUntil`), or a number of them (`Source.readExact`). What it gets depends on the
content alone, and not on how the reads split it (`readUntil_content`, `readExact_eq_some`).
-/

namespace Mio.Library

variable {α : Type}

/-- What one read gives. The end of the source is not a read. -/
abbrev Read (α : Type) := { elements : List α // elements ≠ [] }

/-- A buffer and the reads to come. After the last of them comes the end of the source, or a read
that fails. -/
structure Source (α : Type) where
  buffer : List α
  reads : List (Read α)
  fails : Bool

/-- What is still to be taken. -/
def Source.content (source : Source α) : List α :=
  source.buffer ++ source.reads.flatMap (·.val)

section Until

variable [DecidableEq α]

/-- What comes up to the first stop and with it, at most so many elements, and the rest. -/
def splitUntil (stop : α) : ℕ → List α → List α × List α
  | 0, rest => ([], rest)
  | _ + 1, [] => ([], [])
  | limit + 1, a :: rest =>
    if a = stop then ([a], rest)
    else
      let (line, rest) := splitUntil stop limit rest
      (a :: line, rest)

/-- Nothing more is taken: the line has its stop, or as much as it may have. -/
def isComplete (stop : α) (limit : ℕ) (line : List α) : Bool :=
  line.length == limit || line.contains stop

/-- Take from the buffer, and from the reads as long as there is no stop. -/
def readUntilFrom (stop : α) : ℕ → List α → List (Read α) → List α × List α × List (Read α)
  | limit, buffer, [] =>
    let (line, rest) := splitUntil stop limit buffer
    (line, rest, [])
  | limit, buffer, read :: reads =>
    let (line, rest) := splitUntil stop limit buffer
    if isComplete stop limit line then (line, rest, read :: reads)
    else
      let (more, state) := readUntilFrom stop (limit - line.length) read.val reads
      (line ++ more, state)

/-- The next line, which is cut off at the end of the source. A read that fails gives none. -/
def Source.readUntil (stop : α) (limit : ℕ) (source : Source α) : Option (List α × Source α) :=
  let (line, buffer, reads) := readUntilFrom stop limit source.buffer source.reads
  if isComplete stop limit line || !source.fails then some (line, { source with buffer, reads })
  else none

variable {stop : α} {limit : ℕ} {first rest : List α}

/-- Together, the line and the rest are what there was. -/
theorem splitUntil_append_rest (stop : α) (limit : ℕ) (l : List α) :
    (splitUntil stop limit l).1 ++ (splitUntil stop limit l).2 = l := by
  fun_induction splitUntil stop limit l with
  | case1 l => rfl
  | case2 limit => rfl
  | case3 limit rest => rfl
  | case4 limit a l hne line rest heq ih =>
    rw [heq] at ih
    exact congrArg (a :: ·) ih

/-- A complete line is the same whatever follows. -/
theorem splitUntil_of_complete (h : isComplete stop limit (splitUntil stop limit first).1 = true)
    (rest : List α) :
    splitUntil stop limit (first ++ rest) =
      ((splitUntil stop limit first).1, (splitUntil stop limit first).2 ++ rest) := by
  induction first generalizing limit with
  | nil =>
    cases limit with
    | zero => rfl
    | succ limit => simp [splitUntil, isComplete] at h
  | cons a first ih =>
    cases limit with
    | zero => rfl
    | succ limit =>
      by_cases ha : a = stop
      · simp [splitUntil, ha]
      · have hrest : isComplete stop limit (splitUntil stop limit first).1 = true := by
          simpa [splitUntil, isComplete, ha, Ne.symm ha] using h
        simp [splitUntil, ha, ih hrest]

/-- A line that is not complete takes all there is, and it goes on with what follows. -/
theorem splitUntil_of_not_complete
    (h : isComplete stop limit (splitUntil stop limit first).1 = false) (rest : List α) :
    (splitUntil stop limit first).1 = first ∧ (splitUntil stop limit first).2 = [] ∧
      splitUntil stop limit (first ++ rest) =
        (first ++ (splitUntil stop (limit - first.length) rest).1,
          (splitUntil stop (limit - first.length) rest).2) := by
  induction first generalizing limit with
  | nil =>
    cases limit with
    | zero => simp [splitUntil, isComplete] at h
    | succ limit => exact ⟨rfl, rfl, rfl⟩
  | cons a first ih =>
    cases limit with
    | zero => simp [splitUntil, isComplete] at h
    | succ limit =>
      by_cases ha : a = stop
      · simp [splitUntil, isComplete, ha] at h
      · have hrest : isComplete stop limit (splitUntil stop limit first).1 = false := by
          simpa [splitUntil, isComplete, ha, Ne.symm ha] using h
        obtain ⟨hline, hnone, hmore⟩ := ih hrest
        simp [splitUntil, ha, hline, hnone, hmore]

/-- A line that fits is taken up to its stop. -/
theorem splitUntil_of_stop (hfirst : stop ∉ first) (hlimit : first.length < limit)
    (rest : List α) : splitUntil stop limit (first ++ stop :: rest) = (first ++ [stop], rest) := by
  induction first generalizing limit with
  | nil =>
    cases limit with
    | zero => simp at hlimit
    | succ limit => simp [splitUntil]
  | cons a first ih =>
    rw [List.mem_cons, not_or] at hfirst
    cases limit with
    | zero => simp at hlimit
    | succ limit =>
      have hrest := ih hfirst.2 (by simpa using hlimit)
      simp [splitUntil, Ne.symm hfirst.1, hrest]

/-- How the reads split the content makes no difference. -/
theorem readUntilFrom_content (stop : α) (limit : ℕ) (buffer : List α) (reads : List (Read α)) :
    let taken := readUntilFrom stop limit buffer reads
    splitUntil stop limit (buffer ++ reads.flatMap (·.val)) =
      (taken.1, taken.2.1 ++ taken.2.2.flatMap (·.val)) := by
  induction reads generalizing limit buffer with
  | nil => simp [readUntilFrom]
  | cons read reads ih =>
    rw [List.flatMap_cons]
    by_cases h : isComplete stop limit (splitUntil stop limit buffer).1 = true
    · rw [splitUntil_of_complete h]
      simp [readUntilFrom, h]
    · rw [Bool.not_eq_true] at h
      obtain ⟨hline, -, hmore⟩ := splitUntil_of_not_complete h (read.val ++ reads.flatMap (·.val))
      rw [hline] at h
      rw [hmore, ih]
      simp [readUntilFrom, h, hline]

/-- A line of the content is read, or the source fails before its end. -/
theorem Source.readUntil_content (stop : α) (limit : ℕ) (source : Source α) :
    let (line, rest) := splitUntil stop limit source.content
    if isComplete stop limit line || !source.fails then
      ∃ source', source.readUntil stop limit = some (line, source') ∧ source'.content = rest ∧
        source'.fails = source.fails
    else source.readUntil stop limit = none := by
  have hcontent := readUntilFrom_content stop limit source.buffer source.reads
  unfold content readUntil
  rw [hcontent]
  dsimp only
  split
  · exact ⟨_, rfl, rfl, rfl⟩
  · rfl

/-- What is read is taken from the front of the content. -/
theorem Source.readUntil_append {source source' : Source α} {line : List α}
    (h : source.readUntil stop limit = some (line, source')) :
    source.content = line ++ source'.content := by
  have hcontent := source.readUntil_content stop limit
  have happend := splitUntil_append_rest stop limit source.content
  rcases hsplit : splitUntil stop limit source.content with ⟨line', rest⟩
  rw [hsplit] at hcontent happend
  dsimp only at hcontent happend
  split at hcontent
  · obtain ⟨other, hother, hrest, -⟩ := hcontent
    obtain ⟨rfl, rfl⟩ := Prod.mk.inj (Option.some.inj (hother.symm.trans h))
    rw [hrest, happend]
  · rw [hcontent] at h
    cases h

end Until

/-- Take so many from the buffer, and from the reads as long as it has too few. -/
def readExactFrom : ℕ → List α → List (Read α) → Option (List α × List α × List (Read α))
  | size, buffer, [] =>
    if size ≤ buffer.length then some (buffer.take size, buffer.drop size, []) else none
  | size, buffer, read :: reads =>
    if size ≤ buffer.length then some (buffer.take size, buffer.drop size, read :: reads)
    else
      (readExactFrom (size - buffer.length) read.val reads).map fun (taken, state) =>
        (buffer ++ taken, state)

/-- Exactly so many elements. There are none where the source ends or fails before. -/
def Source.readExact (size : ℕ) (source : Source α) : Option (List α × Source α) :=
  (readExactFrom size source.buffer source.reads).map fun (taken, buffer, reads) =>
    (taken, { source with buffer, reads })

/-- How the reads split the content makes no difference. -/
theorem readExactFrom_content (size : ℕ) (buffer : List α) (reads : List (Read α)) :
    let content := buffer ++ reads.flatMap (·.val)
    (readExactFrom size buffer reads).map
        (fun taken => (taken.1, taken.2.1 ++ taken.2.2.flatMap (·.val))) =
      if size ≤ content.length then some (content.take size, content.drop size) else none := by
  -- By induction on the reads, for every size and buffer.
  induction reads generalizing size buffer with
  | nil =>
    by_cases h : size ≤ buffer.length <;> simp [readExactFrom, h]
  | cons read reads ih =>
    by_cases h : size ≤ buffer.length
    · have hall : size ≤ buffer.length + (read.val ++ reads.flatMap (·.val)).length := by omega
      simp only [readExactFrom, h, if_true, Option.map_some, List.flatMap_cons, List.length_append]
      rw [List.length_append] at hall
      rw [if_pos hall, List.take_append_of_le_length h, List.drop_append_of_le_length h]
    · have hih := ih (size - buffer.length) read.val
      dsimp only at hih ⊢
      rw [readExactFrom, if_neg h, List.flatMap_cons, Option.map_map]
      have hcomp : ((fun taken : List α × List α × List (Read α) =>
            (taken.1, taken.2.1 ++ taken.2.2.flatMap (·.val))) ∘
          fun (taken, state) => (buffer ++ taken, state)) =
          (fun taken => (buffer ++ taken.1, taken.2)) ∘ fun taken :
            List α × List α × List (Read α) =>
            (taken.1, taken.2.1 ++ taken.2.2.flatMap (·.val)) := rfl
      rw [hcomp, ← Option.map_map, hih]
      have hle : size - buffer.length ≤ (read.val ++ reads.flatMap (·.val)).length ↔
          size ≤ (buffer ++ (read.val ++ reads.flatMap (·.val))).length := by
        rw [@List.length_append _ buffer]
        omega
      by_cases hsize : size ≤ (buffer ++ (read.val ++ reads.flatMap (·.val))).length
      · have hbuffer : buffer.length ≤ size := by omega
        rw [if_pos hsize, if_pos (hle.mpr hsize), @List.take_append _ buffer _ size,
          @List.drop_append _ buffer _ size, List.take_of_length_le hbuffer,
          List.drop_of_length_le hbuffer]
        rfl
      · rw [if_neg hsize, if_neg (fun h => hsize (hle.mp h))]
        rfl

/-- The next elements of the content are read exactly where there are as many. -/
theorem Source.readExact_eq_some {size : ℕ} {source : Source α} (h : size ≤ source.content.length) :
    ∃ source', source.readExact size = some (source.content.take size, source') ∧
      source'.content = source.content.drop size ∧ source'.fails = source.fails := by
  have hcontent := readExactFrom_content size source.buffer source.reads
  unfold readExact content at *
  dsimp only at hcontent
  rw [if_pos h, Option.map_eq_some_iff] at hcontent
  obtain ⟨⟨taken, buffer, reads⟩, htaken, heq⟩ := hcontent
  obtain ⟨hfirst, hrest⟩ := Prod.mk.inj heq
  rw [htaken]
  exact ⟨{ source with buffer, reads }, by rw [← hfirst]; rfl, hrest, rfl⟩

/-- What is read is taken from the front of the content. -/
theorem Source.readExact_append {size : ℕ} {source source' : Source α} {taken : List α}
    (h : source.readExact size = some (taken, source')) :
    source.content = taken ++ source'.content ∧ taken.length = size := by
  have hcontent := readExactFrom_content size source.buffer source.reads
  unfold readExact at h
  obtain ⟨⟨taken', buffer, reads⟩, htaken, heq⟩ := Option.map_eq_some_iff.mp h
  obtain ⟨rfl, rfl⟩ := Prod.mk.inj heq
  rw [htaken] at hcontent
  dsimp only at hcontent
  split at hcontent
  · rename_i hsize
    obtain ⟨hfirst, hrest⟩ := Prod.mk.inj (Option.some.inj hcontent)
    unfold content
    dsimp only at hfirst hrest ⊢
    rw [hfirst, hrest, List.take_append_drop]
    exact ⟨rfl, List.length_take_of_le hsize⟩
  · cases hcontent

end Mio.Library
