import Mathlib.Data.List.DropRight
import Mathlib.Data.List.Basic

/-!
# Frames that end with a stop

A stream of frames, each of which ends with a stop, comes in chunks whose bounds need not be those
of the frames. A reader keeps what it has of the next frame in a buffer, and takes a chunk as long
as the buffer has no stop. It gives up where the buffer and a chunk together are over a limit. What
it gives is always a prefix of the frames, whole and in order (`pullFrames_inOrder`). It gives all
of them exactly where every chunk fits beside the part of a frame that comes before it
(`pullFrames_eq_iff`).
-/

namespace Mio.Library

variable {α : Type} [DecidableEq α]

/-- The buffer up to the first stop and with it, and the rest. -/
def takeFrame (stop : α) (buffer : List α) : Option (List α × List α) :=
  (buffer.idxOf? stop).map fun index => (buffer.take (index + 1), buffer.drop (index + 1))

/-- What comes after the last stop. -/
def afterLast (stop : α) (l : List α) : List α := l.rtakeWhile fun a => a ≠ stop

/-- Every chunk fits beside what comes after the last stop before it. -/
def ChunksFit (stop : α) (limit : ℕ) : List α → List (List α) → Prop
  | _, [] => True
  | buffer, chunk :: chunks =>
    (afterLast stop buffer).length + chunk.length ≤ limit ∧
      ChunksFit stop limit (buffer ++ chunk) chunks

/-- The next frame, with the buffer and the chunks that are left. -/
def nextFrame (stop : α) (limit : ℕ) :
    List α → List (List α) → Option (List α × List α × List (List α))
  | buffer, [] => (takeFrame stop buffer).map fun (frame, rest) => (frame, rest, [])
  | buffer, chunk :: chunks =>
    match takeFrame stop buffer with
    | some (frame, rest) => some (frame, rest, chunk :: chunks)
    | none =>
      if buffer.length + chunk.length ≤ limit then nextFrame stop limit (buffer ++ chunk) chunks
      else none

/-- The frames of so many calls, up to the first that gives none. -/
def pullFrames (stop : α) (limit : ℕ) : ℕ → List α → List (List α) → List (List α)
  | 0, _, _ => []
  | calls + 1, buffer, chunks =>
    match nextFrame stop limit buffer chunks with
    | none => []
    | some (frame, rest, chunks) => frame :: pullFrames stop limit calls rest chunks

/-- The stream of the frames. -/
def joinFrames {α : Type} (stop : α) (frames : List (List α)) : List α :=
  frames.flatMap (· ++ [stop])

/-- The first frame with its stop, and then the others. -/
theorem joinFrames_cons {α : Type} (stop : α) (frame : List α) (frames : List (List α)) :
    joinFrames stop (frame :: frames) = frame ++ stop :: joinFrames stop frames := by
  rw [joinFrames, List.flatMap_cons, List.append_assoc]
  rfl

section Buffer

variable {stop : α} {frame rest buffer : List α}

/-- The first stop comes after what has none. -/
theorem idxOf?_append_stop (hframe : stop ∉ frame) (rest : List α) :
    (frame ++ stop :: rest).idxOf? stop = some frame.length := by
  rw [List.idxOf?_eq_some_iff]
  refine ⟨by simp, by simp, fun i hi => ?_⟩
  have hlt : i < frame.length := hi
  rw [List.getElem_append_left hlt]
  intro heq
  exact hframe (heq ▸ List.getElem_mem hlt)

/-- The first frame ends at the first stop. -/
theorem takeFrame_eq_some (hframe : stop ∉ frame) (rest : List α) :
    takeFrame stop (frame ++ stop :: rest) = some (frame ++ [stop], rest) := by
  unfold takeFrame
  rw [idxOf?_append_stop hframe, Option.map_some, List.take_append, List.drop_append,
    List.take_of_length_le (by omega)]
  simp

/-- Without a stop there is no frame. -/
theorem takeFrame_eq_none (h : stop ∉ buffer) : takeFrame stop buffer = none := by
  unfold takeFrame
  rw [List.idxOf?_eq_none_iff.mpr h]
  rfl

/-- Without a stop all is left. -/
theorem afterLast_of_notMem (h : stop ∉ buffer) : afterLast stop buffer = buffer := by
  unfold afterLast
  rw [List.rtakeWhile_eq_self_iff]
  intro a ha
  have hne : a ≠ stop := fun heq => h (heq ▸ ha)
  simpa using hne

/-- Only what comes after a stop counts. -/
theorem afterLast_append_stop (front rest : List α) :
    afterLast stop (front ++ stop :: rest) = afterLast stop rest := by
  unfold afterLast
  induction rest using List.reverseRecOn with
  | nil => simp
  | append_singleton rest a ih =>
    have hsplit : front ++ stop :: (rest ++ [a]) = (front ++ stop :: rest) ++ [a] := by simp
    rw [hsplit, List.rtakeWhile_concat, List.rtakeWhile_concat, ih]

/-- Only what follows the last stop counts for the next chunk. -/
theorem chunksFit_append_stop {limit : ℕ} (front rest : List α) (chunks : List (List α)) :
    ChunksFit stop limit (front ++ stop :: rest) chunks ↔ ChunksFit stop limit rest chunks := by
  induction chunks generalizing rest with
  | nil => exact Iff.rfl
  | cons chunk chunks ih =>
    have hsplit : front ++ stop :: rest ++ chunk = front ++ stop :: (rest ++ chunk) := by simp
    unfold ChunksFit
    rw [afterLast_append_stop, hsplit, ih]

/-- A chunk for each frame fits, where the frame does. -/
theorem chunksFit_frames {limit : ℕ} {frames : List (List α)}
    (h : ∀ frame ∈ frames, frame.length + 1 ≤ limit) :
    ChunksFit stop limit [] (frames.map (· ++ [stop])) := by
  induction frames with
  | nil => trivial
  | cons frame frames ih =>
    rw [List.forall_mem_cons] at h
    rw [List.map_cons]
    refine ⟨?_, ?_⟩
    · have hnone : (afterLast stop ([] : List α)).length = 0 := rfl
      rw [hnone, List.length_append, List.length_singleton]
      omega
    · exact (chunksFit_append_stop frame [] _).mpr (ih h.2)

end Buffer

section Frames

variable {stop : α} {limit : ℕ} {frame rest buffer : List α} {chunks : List (List α)}

/-- The next call gives the first frame of the stream, where the chunks of that frame fit. It gives
none where one of them does not. -/
theorem nextFrame_cases (hframe : stop ∉ frame)
    (h : buffer ++ chunks.flatten = frame ++ stop :: rest) :
    (∃ buffer' chunks', nextFrame stop limit buffer chunks =
        some (frame ++ [stop], buffer', chunks') ∧
      buffer' ++ chunks'.flatten = rest ∧ chunks'.Sublist chunks ∧
      (ChunksFit stop limit buffer chunks ↔ ChunksFit stop limit buffer' chunks') ∧
      (buffer.length ≤ limit → frame.length + 1 + buffer'.length ≤ limit)) ∨
    nextFrame stop limit buffer chunks = none ∧ ¬ChunksFit stop limit buffer chunks := by
  -- By induction on the chunks, for any buffer.
  induction chunks generalizing buffer with
  | nil =>
    rw [List.flatten_nil, List.append_nil] at h
    subst h
    refine .inl ⟨rest, [], ?_, by simp, List.Sublist.refl _, ?_, fun hle => ?_⟩
    · rw [nextFrame, takeFrame_eq_some hframe]
      rfl
    · exact chunksFit_append_stop frame rest []
    · rw [List.length_append, List.length_cons] at hle
      omega
  | cons chunk chunks ih =>
    rw [List.flatten_cons] at h
    by_cases hstop : stop ∈ buffer
    · -- The buffer has the whole frame already.
      obtain ⟨front, last, rfl, hfront⟩ := List.eq_append_cons_of_mem hstop
      have hsame := @takeFrame_eq_some _ _ stop frame hframe rest
      rw [← h, List.append_assoc, List.cons_append, takeFrame_eq_some hfront] at hsame
      obtain ⟨hline, hrest⟩ := Prod.mk.inj (Option.some.inj hsame)
      obtain rfl := List.append_cancel_right hline
      refine .inl ⟨last, chunk :: chunks, ?_, by rw [List.flatten_cons, hrest],
        List.Sublist.refl _, chunksFit_append_stop front last _, fun hle => ?_⟩
      · rw [nextFrame, takeFrame_eq_some hfront]
      · rw [List.length_append, List.length_cons] at hle
        omega
    · rw [nextFrame, takeFrame_eq_none hstop]
      dsimp only
      by_cases hfits : buffer.length + chunk.length ≤ limit
      · rw [if_pos hfits]
        -- The next chunk is within the limit, so the condition is that of the buffer with it.
        have hstep : ChunksFit stop limit buffer (chunk :: chunks) ↔
            ChunksFit stop limit (buffer ++ chunk) chunks := by
          rw [ChunksFit, afterLast_of_notMem hstop]
          exact and_iff_right hfits
        have happended : (buffer ++ chunk) ++ chunks.flatten = frame ++ stop :: rest := by
          rw [List.append_assoc, h]
        obtain ⟨buffer', chunks', hnext, hrest, hsublist, hiff, hsize⟩ | ⟨hnone, hnot⟩ :=
          ih happended
        · refine .inl ⟨buffer', chunks', hnext, hrest, hsublist.cons _, hstep.trans hiff, ?_⟩
          intro _
          exact hsize (by rw [List.length_append]; exact hfits)
        · exact .inr ⟨hnone, fun h => hnot (hstep.mp h)⟩
      · rw [if_neg hfits]
        -- The next chunk is not, and this is what the condition says first.
        refine .inr ⟨rfl, fun h => ?_⟩
        rw [ChunksFit, afterLast_of_notMem hstop] at h
        exact hfits h.1

/-- There is no frame in an empty stream. -/
theorem nextFrame_eq_none (h : chunks.flatten = []) : nextFrame stop limit [] chunks = none := by
  induction chunks with
  | nil => rfl
  | cons chunk chunks ih =>
    rw [List.flatten_cons, List.append_eq_nil_iff] at h
    obtain ⟨rfl, hchunks⟩ := h
    have hnone : takeFrame stop ([] : List α) = none := rfl
    rw [nextFrame, hnone]
    dsimp only [List.length_nil]
    rw [if_pos (Nat.zero_le limit)]
    exact ih hchunks

/-- The frames of the calls are the first of the stream. -/
theorem pullFrames_inOrder {frames : List (List α)} (hframes : ∀ frame ∈ frames, stop ∉ frame)
    (h : buffer ++ chunks.flatten = joinFrames stop frames) (calls : ℕ) :
    pullFrames stop limit calls buffer chunks <+: frames.map (· ++ [stop]) := by
  induction calls generalizing buffer chunks frames with
  | zero => exact List.nil_prefix
  | succ calls ih =>
    cases frames with
    | nil =>
      obtain ⟨hbuffer, hchunks⟩ := List.append_eq_nil_iff.mp h
      rw [pullFrames, hbuffer, nextFrame_eq_none hchunks]
      exact List.nil_prefix
    | cons frame frames =>
      rw [joinFrames_cons] at h
      rw [List.forall_mem_cons] at hframes
      rw [pullFrames]
      obtain ⟨buffer', chunks', hnext, hrest, -⟩ | ⟨hnone, -⟩ :=
        @nextFrame_cases _ _ stop limit frame _ buffer chunks hframes.1 h
      · rw [hnext]
        exact (List.prefix_cons_inj _).mpr (ih hframes.2 hrest)
      · rw [hnone]
        exact List.nil_prefix

/-- Enough calls give all frames exactly where the chunks fit. -/
theorem pullFrames_eq_iff {frames : List (List α)} (hframes : ∀ frame ∈ frames, stop ∉ frame)
    (hchunks : ∀ chunk ∈ chunks, chunk ≠ [])
    (h : buffer ++ chunks.flatten = joinFrames stop frames) {calls : ℕ}
    (hcalls : frames.length ≤ calls) :
    pullFrames stop limit calls buffer chunks = frames.map (· ++ [stop]) ↔
      ChunksFit stop limit buffer chunks := by
  -- By induction on the frames: each call takes the next one, or the stream is stuck there.
  induction frames generalizing buffer chunks calls with
  | nil =>
    obtain ⟨-, hflatten⟩ := List.append_eq_nil_iff.mp h
    have hnone : chunks = [] := by
      rw [List.eq_nil_iff_forall_not_mem]
      intro chunk hchunk
      exact hchunks chunk hchunk (List.flatten_eq_nil_iff.mp hflatten chunk hchunk)
    have hpulled := @pullFrames_inOrder _ _ stop limit _ _ _ hframes h calls
    rw [hnone] at hpulled ⊢
    exact iff_of_true (List.prefix_nil.mp hpulled) trivial
  | cons frame frames ih =>
    rw [joinFrames_cons] at h
    rw [List.forall_mem_cons] at hframes
    obtain ⟨calls, rfl⟩ := Nat.exists_eq_add_of_le' (Nat.le_trans (Nat.le_add_left 1 _) hcalls)
    rw [pullFrames, List.map_cons]
    obtain ⟨buffer', chunks', hnext, hrest, hsublist, hiff, -⟩ | ⟨hnone, hnot⟩ :=
      @nextFrame_cases _ _ stop limit frame _ buffer chunks hframes.1 h
    · have htail := ih hframes.2 (fun chunk hchunk => hchunks chunk (hsublist.subset hchunk)) hrest
        (Nat.le_of_succ_le_succ hcalls)
      rw [hnext, hiff, ← htail]
      dsimp only
      rw [List.cons.injEq]
      exact and_iff_right rfl
    · rw [hnone]
      exact iff_of_false (List.cons_ne_nil _ _).symm hnot

/-- A frame over the limit is never given. -/
theorem pullFrames_length {frames : List (List α)} (hframes : ∀ frame ∈ frames, stop ∉ frame)
    (h : buffer ++ chunks.flatten = joinFrames stop frames) (hbuffer : buffer.length ≤ limit)
    (calls : ℕ) : ∀ frame ∈ pullFrames stop limit calls buffer chunks, frame.length ≤ limit := by
  induction calls generalizing buffer chunks frames with
  | zero => exact fun _ hframe => (List.not_mem_nil hframe).elim
  | succ calls ih =>
    cases frames with
    | nil =>
      obtain ⟨hnone, hchunks⟩ := List.append_eq_nil_iff.mp h
      rw [pullFrames, hnone, nextFrame_eq_none hchunks]
      exact fun _ hframe => (List.not_mem_nil hframe).elim
    | cons first frames =>
      rw [joinFrames_cons] at h
      rw [List.forall_mem_cons] at hframes
      rw [pullFrames]
      obtain ⟨buffer', chunks', hnext, hrest, -, -, hsize⟩ | ⟨hnone, -⟩ :=
        @nextFrame_cases _ _ stop limit first _ buffer chunks hframes.1 h
      · have hfirst := hsize hbuffer
        rw [hnext]
        intro frame hframe
        rcases List.mem_cons.mp hframe with rfl | hframe
        · rw [List.length_append, List.length_singleton]
          omega
        · exact ih hframes.2 hrest (by omega) frame hframe
      · rw [hnone]
        exact fun _ hframe => (List.not_mem_nil hframe).elim

end Frames

end Mio.Library
