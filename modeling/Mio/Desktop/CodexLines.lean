import Mathlib.Data.List.DropRight
import Mio.Library.Delimited
import Mio.Library.Reads
import Mio.Library.Text

/-!
# The lines of the App Server

`read_limited_line` of `apps/desktop/src-tauri/src/codex_app_server.rs`, with which the reader of a
turn takes the lines that the App Server writes. The buffered reader hands its stream out in pieces
of any sizes, and what is left after a call in other pieces again (`Handing`). What a call gives
depends on the stream alone, and not on the pieces (`readLineFrom_frame`, `readLineFrom_rest`), so
that repeated calls give the lines of the stream, up to the first that is too long (`readCalls_eq`).
-/

namespace Mio.Desktop.CodexLines

open Library

/-- The greatest file that a tool result may carry, in bytes. -/
def maximumBinaryFileBytes : ℕ := 16 * 1048576

/-- The greatest line: such a file in base64, and a mebibyte around it. -/
def maximumAppServerLineBytes : ℕ := (maximumBinaryFileBytes + 2) / 3 * 4 + 1048576

/-- Why no further line is read. -/
inductive LineError where
  /-- The stream cannot be read. -/
  | read
  /-- The line is over the limit. -/
  | invalidData
  deriving DecidableEq

/-- What the pieces hold together. -/
def content (pieces : List (Read UInt8)) : Bytes := pieces.flatMap (·.val)

/-- The pieces after so many bytes of the first one are consumed. -/
def consume (amount : ℕ) (piece : Read UInt8) (pieces : List (Read UInt8)) : List (Read UInt8) :=
  if h : piece.val.drop amount ≠ [] then ⟨piece.val.drop amount, h⟩ :: pieces else pieces

/-- Whether the byte belongs to the end of a line. -/
def isLineEnd (byte : UInt8) : Bool := byte == 0x0a || byte == 0x0d

/-- The loop of `read_limited_line`, with what it has of the line. After the last piece comes the
end of the stream, or a read that fails. -/
def readLineFrom (limit : ℕ) (fails : Bool) :
    Bytes → List (Read UInt8) → Except LineError (Option Bytes × List (Read UInt8))
  | line, [] =>
    if fails then .error .read
    else if line.isEmpty then .ok (none, [])
    else .ok (some line, [])
  | line, piece :: pieces =>
    let newline := piece.val.idxOf? 0x0a
    let take := (newline.map (· + 1)).getD piece.val.length
    if limit < line.length + take then .error .invalidData
    else
      let line := line ++ piece.val.take take
      if newline.isSome then .ok (some (line.rdropWhile isLineEnd), consume take piece pieces)
      else readLineFrom limit fails line pieces

/-- Reads one line of the server within the limit. -/
def readLimitedLine (fails : Bool) (pieces : List (Read UInt8)) :
    Except LineError (Option Bytes × List (Read UInt8)) :=
  readLineFrom maximumAppServerLineBytes fails [] pieces

/-- The pieces in which a reader hands out what a call leaves. A `BufReader` keeps those that it
has. -/
structure Handing where
  again : List (Read UInt8) → List (Read UInt8)
  content_again : ∀ pieces, content (again pieces) = content pieces

/-- What so many calls give, up to the first that gives no line. -/
def readCalls (handing : Handing) (fails : Bool) :
    ℕ → List (Read UInt8) → List (Except LineError (Option Bytes))
  | 0, _ => []
  | calls + 1, pieces =>
    match readLimitedLine fails pieces with
    | .ok (some line, left) => .ok (some line) :: readCalls handing fails calls (handing.again left)
    | .ok (none, _) => [.ok none]
    | .error e => [.error e]

/-! ## One call -/

/-- The content of pieces is that of the first, then that of the rest. -/
theorem content_cons (piece : Read UInt8) (pieces : List (Read UInt8)) :
    content (piece :: pieces) = piece.val ++ content pieces := rfl

/-- What is not consumed is still to come. -/
theorem content_consume (amount : ℕ) (piece : Read UInt8) (pieces : List (Read UInt8)) :
    content (consume amount piece pieces) = piece.val.drop amount ++ content pieces := by
  unfold consume
  split_ifs with h
  · rfl
  · rw [not_ne_iff.mp h, List.nil_append]

section Call

variable (limit : ℕ) (fails : Bool) (line : Bytes)

/-- A piece without a line break goes to the line as a whole. -/
theorem readLineFrom_piece {piece : Read UInt8} {pieces : List (Read UInt8)}
    (hpiece : 0x0a ∉ piece.val) :
    readLineFrom limit fails line (piece :: pieces) =
      if limit < line.length + piece.val.length then .error .invalidData
      else readLineFrom limit fails (line ++ piece.val) pieces := by
  have hnewline : piece.val.idxOf? 0x0a = none := List.idxOf?_eq_none_iff.mpr hpiece
  rw [readLineFrom, hnewline]
  simp only [Option.map_none, Option.getD_none, List.take_length, Option.isSome_none,
    Bool.false_eq_true, if_false]

/-- A piece with a line break ends the line. -/
theorem readLineFrom_newline {frame rest : Bytes} {piece : Read UInt8}
    {pieces : List (Read UInt8)} (hpiece : piece.val = frame ++ 0x0a :: rest)
    (hframe : 0x0a ∉ frame) :
    readLineFrom limit fails line (piece :: pieces) =
      if limit < line.length + (frame.length + 1) then .error .invalidData
      else .ok (some ((line ++ (frame ++ [0x0a])).rdropWhile isLineEnd),
        consume (frame.length + 1) piece pieces) := by
  have hnewline : piece.val.idxOf? 0x0a = some frame.length := by
    rw [hpiece]
    exact idxOf?_append_stop hframe rest
  have htake : piece.val.take (frame.length + 1) = frame ++ [0x0a] := by
    rw [hpiece, List.take_append, List.take_of_length_le (by omega), Nat.add_sub_cancel_left]
    rfl
  rw [readLineFrom, hnewline]
  simp only [Option.map_some, Option.getD_some, htake, Option.isSome_some, if_true]

/-- Up to the first line break, the pieces do not matter. -/
theorem readLineFrom_frame {frame rest : Bytes} {pieces : List (Read UInt8)}
    (hcontent : content pieces = frame ++ 0x0a :: rest) (hframe : 0x0a ∉ frame) :
    if limit < line.length + (frame.length + 1) then
      readLineFrom limit fails line pieces = .error .invalidData
    else ∃ after, content after = rest ∧ readLineFrom limit fails line pieces =
      .ok (some ((line ++ (frame ++ [0x0a])).rdropWhile isLineEnd), after) := by
  -- By induction on the pieces, for any part of the line that was read before.
  induction pieces generalizing line frame with
  | nil =>
    rw [content, List.flatMap_nil] at hcontent
    simp at hcontent
  | cons piece pieces ih =>
    rw [content_cons] at hcontent
    by_cases hpiece : 0x0a ∈ piece.val
    · -- The line ends in this piece.
      obtain ⟨front, back, hsplit, hfront⟩ := List.eq_append_cons_of_mem hpiece
      have hsame : (front ++ [0x0a], back ++ content pieces) = (frame ++ [0x0a], rest) := by
        have htaken := takeFrame_eq_some hfront (back ++ content pieces)
        rw [← List.cons_append, ← List.append_assoc, ← hsplit, hcontent,
          takeFrame_eq_some hframe rest] at htaken
        exact (Option.some.inj htaken).symm
      obtain ⟨hfronts, hrest⟩ := Prod.mk.inj hsame
      obtain rfl : front = frame := List.append_cancel_right hfronts
      rw [readLineFrom_newline limit fails line hsplit hfront]
      split_ifs
      · rfl
      · refine ⟨_, ?_, rfl⟩
        rw [content_consume, hsplit, ← hrest]
        simp
    · -- The line goes on in the next one.
      obtain ⟨more, rfl, hmore⟩ : ∃ more, frame = piece.val ++ more ∧
          content pieces = more ++ 0x0a :: rest := by
        rcases List.append_eq_append_iff.mp hcontent with ⟨more, hframe, hmore⟩ |
          ⟨excess, hexcess, hrest⟩
        · exact ⟨more, hframe, hmore⟩
        · cases excess with
          | nil => exact ⟨[], by rw [hexcess, List.append_nil, List.append_nil], hrest.symm⟩
          | cons byte excess =>
            obtain ⟨rfl, -⟩ := List.cons.inj hrest
            rw [hexcess] at hpiece
            exact absurd (List.mem_append_right frame List.mem_cons_self) hpiece
      have hmoreNone : 0x0a ∉ more := fun hmem => hframe (List.mem_append_right _ hmem)
      have hlater := @ih (line ++ piece.val) more hmore hmoreNone
      rw [List.length_append] at hlater
      rw [readLineFrom_piece limit fails line hpiece, List.length_append]
      -- The limit is checked after each piece, and again for the whole line.
      by_cases hnow : limit < line.length + piece.val.length
      · rw [if_pos hnow, if_pos (by omega)]
      · rw [if_neg hnow]
        split_ifs at hlater ⊢ with hlong hlong'
        · exact hlater
        · omega
        · omega
        · obtain ⟨after, hafter, hread⟩ := hlater
          refine ⟨after, hafter, ?_⟩
          rw [hread, List.append_assoc, List.append_assoc]

/-- What comes after the last line break is given as it is. -/
theorem readLineFrom_rest {pieces : List (Read UInt8)} (hline : line.length ≤ limit)
    (hcontent : 0x0a ∉ content pieces) :
    readLineFrom limit fails line pieces =
      if limit < line.length + (content pieces).length then .error .invalidData
      else if fails then .error .read
      else if (line ++ content pieces).isEmpty then .ok (none, [])
      else .ok (some (line ++ content pieces), []) := by
  induction pieces generalizing line with
  | nil =>
    have hnone : content [] = [] := rfl
    rw [hnone, List.length_nil, Nat.add_zero, if_neg (Nat.not_lt.mpr hline), List.append_nil]
    rfl
  | cons piece pieces ih =>
    rw [content_cons, List.mem_append, not_or] at hcontent
    rw [readLineFrom_piece limit fails line hcontent.1, content_cons, List.length_append]
    by_cases hnow : limit < line.length + piece.val.length
    · rw [if_pos hnow, if_pos (by omega)]
    · have hfits : (line ++ piece.val).length ≤ limit := by
        rw [List.length_append]
        omega
      rw [if_neg hnow, ih (line ++ piece.val) hfits hcontent.2, List.length_append,
        List.append_assoc, Nat.add_assoc]

end Call

/-! ## Repeated calls -/

/-- The lines of a stream, each with its line break. What comes after the last one has none. -/
def streamLines (stream : Bytes) : List Bytes :=
  let parts := stream.splitOn 0x0a
  parts.dropLast.map (· ++ [0x0a]) ++ [parts.getLastD []].filter (· ≠ [])

/-- A line as it is given: one with its line break is given without the line ends after it. -/
def shownLine (line : Bytes) : Bytes :=
  if line.getLast? = some 0x0a then line.rdropWhile isLineEnd else line

/-- The lines up to the first that is too long, and then the failure or the end. -/
def limitedLines (limit : ℕ) (lines : List Bytes) : List (Except LineError (Option Bytes)) :=
  (lines.takeWhile (·.length ≤ limit)).map (fun line => .ok (some (shownLine line))) ++
    [if lines.all (·.length ≤ limit) then .ok none else .error .invalidData]

/-- A line feed ends the first line of a stream. -/
theorem streamLines_frame {frame : Bytes} (hframe : 0x0a ∉ frame) (rest : Bytes) :
    streamLines (frame ++ 0x0a :: rest) = (frame ++ [0x0a]) :: streamLines rest := by
  obtain ⟨part, parts, hparts⟩ := List.exists_cons_of_ne_nil (List.splitOn_ne_nil 0x0a rest)
  unfold streamLines
  rw [List.splitOn_append_cons_self_of_not_mem hframe, hparts]
  rfl

/-- Without a line feed the stream is one line, or none when it is empty. -/
theorem streamLines_rest {stream : Bytes} (hstream : 0x0a ∉ stream) :
    streamLines stream = [stream].filter (· ≠ []) := by
  unfold streamLines
  rw [List.splitOn_eq_singleton hstream]
  rfl

/-- The first line is refused when it is over the limit, and then nothing more is read. -/
theorem limitedLines_cons (limit : ℕ) (line : Bytes) (lines : List Bytes) :
    limitedLines limit (line :: lines) =
      if limit < line.length then [.error .invalidData]
      else .ok (some (shownLine line)) :: limitedLines limit lines := by
  unfold limitedLines
  rw [List.takeWhile_cons, List.all_cons]
  by_cases hlong : limit < line.length
  · rw [decide_eq_false (Nat.not_le.mpr hlong), if_pos hlong]
    rfl
  · rw [decide_eq_true (Nat.not_lt.mp hlong), if_neg hlong, if_pos rfl, Bool.true_and]
    rfl

/-- Repeated calls give the lines of the stream, whatever the pieces are. -/
theorem readCalls_eq (handing : Handing) (calls : ℕ) (pieces : List (Read UInt8)) :
    readCalls handing false calls pieces =
      (limitedLines maximumAppServerLineBytes (streamLines (content pieces))).take calls := by
  generalize hlimit : maximumAppServerLineBytes = limit
  -- By induction on the calls; a line that ends is removed from the stream, and the rest is handed
  -- over in pieces of any sizes.
  induction calls generalizing pieces with
  | zero => rfl
  | succ calls ih =>
    rw [readCalls, readLimitedLine, hlimit]
    by_cases hnewline : 0x0a ∈ content pieces
    · obtain ⟨frame, rest, hcontent, hframe⟩ := List.eq_append_cons_of_mem hnewline
      have hcall := readLineFrom_frame limit false [] hcontent hframe
      have hlength : (frame ++ [0x0a]).length = frame.length + 1 := List.length_append
      rw [List.length_nil, Nat.zero_add] at hcall
      rw [hcontent, streamLines_frame hframe, limitedLines_cons, hlength]
      by_cases hlong : limit < frame.length + 1
      · rw [if_pos hlong] at hcall ⊢
        rw [hcall, List.take_succ_cons, List.take_nil]
      · rw [if_neg hlong] at hcall ⊢
        obtain ⟨left, hleft, hread⟩ := hcall
        have hshown : shownLine (frame ++ [0x0a]) = (frame ++ [0x0a]).rdropWhile isLineEnd :=
          if_pos (List.getLast?_concat ..)
        have hlater := ih (handing.again left)
        rw [handing.content_again, hleft] at hlater
        rw [hread, hshown, List.take_succ_cons, ← hlater]
        rfl
    -- Without a newline, what is left is the last line, or nothing.
    · have hcall := readLineFrom_rest limit false [] (Nat.zero_le _) hnewline
      rw [List.length_nil, Nat.zero_add, List.nil_append] at hcall
      rw [streamLines_rest hnewline]
      by_cases hnone : content pieces = []
      · -- The stream is at its end.
        rw [hnone, List.length_nil, if_neg (Nat.not_lt_zero limit)] at hcall
        rw [hcall, hnone]
        exact (List.take_of_length_le (Nat.le_add_left 1 calls)).symm
      · have hkept : [content pieces].filter (· ≠ []) = [content pieces] :=
          List.filter_eq_self.mpr (by simpa using hnone)
        have hempty : (content pieces).isEmpty = false := by simpa using hnone
        have hshown : shownLine (content pieces) = content pieces :=
          if_neg fun hlast => hnewline (List.mem_of_getLast? hlast)
        rw [hcall, hkept, limitedLines_cons, hempty, hshown]
        by_cases hlong : limit < (content pieces).length
        · rw [if_pos hlong, if_pos hlong, List.take_succ_cons, List.take_nil]
        · -- After the last line, the next call is at the end of the stream.
          have hend := ih (handing.again [])
          rw [handing.content_again] at hend
          rw [if_neg hlong, if_neg hlong, List.take_succ_cons]
          exact congrArg (_ :: ·) hend

end Mio.Desktop.CodexLines
