import Mio.Library.Text

/-!
# The output of a command

`capture_bounded` of `crates/moe-windows-command-runner/src/lib.rs`, and the same function of
`crates/moe-windows-command-launcher/src/windows.rs`, which differ in their errors only. Two threads
read the two streams of a command, and both take what they keep from one budget. A thread does one
thing in a step: it reads a chunk, it counts the chunk, or it keeps what it may of the chunk, so
that a run is any order in which the threads take their steps.

What a thread has counted of its stream, and what the budget still gives for it, are in `Own` and
`Shared`. No step of a thread breaks the part of the other one (`Shared.step`).
-/

namespace Mio.Launcher

open Library

/-- The greatest `usize` of the target. -/
def usizeMax : ℕ := 2 ^ 64 - 1

/-- `usize::saturating_add`. -/
def saturatingAdd (a b : ℕ) : ℕ := min (a + b) usizeMax

/-- The budget that both readers draw on. -/
structure OutputBudget where
  limit : ℕ
  used : ℕ
  exceeded : Bool
  deriving DecidableEq

/-- What a thread does next. -/
inductive ReaderPhase (ε : Type) where
  | reading
  /-- It has read a chunk, and is to count it. -/
  | counting (chunk : Bytes)
  /-- It has counted a chunk, past so many bytes, and is to keep it. -/
  | retaining (chunk : Bytes) (previous : ℕ)
  | finished (result : Except ε Unit)

/-- A thread, with the chunks that its stream still has for it. -/
structure OutputReader (ε : Type) where
  reads : List (Except ε Bytes)
  phase : ReaderPhase ε
  captured : Bytes

variable {ε : Type}

/-- How much of a chunk is kept. -/
def OutputBudget.retained (budget : OutputBudget) (chunk : Bytes) (previous : ℕ) : ℕ :=
  min (budget.limit - previous) chunk.length

/-- A step of `capture_bounded`. -/
def OutputReader.step (budget : OutputBudget) (reader : OutputReader ε) :
    OutputBudget × OutputReader ε :=
  match reader.phase with
  | .reading =>
    match reader.reads with
    -- A stream that has nothing left reads no bytes, as one does that is at its end.
    | [] | .ok [] :: _ => (budget, { reader with phase := .finished (.ok ()) })
    | .error error :: _ => (budget, { reader with phase := .finished (.error error) })
    | .ok chunk :: reads => (budget, { reader with reads, phase := .counting chunk })
  | .counting chunk =>
    ({ budget with
        used := min (saturatingAdd budget.used chunk.length) (saturatingAdd budget.limit 1) },
      { reader with phase := .retaining chunk budget.used })
  | .retaining chunk previous =>
    ({ budget with
        exceeded := budget.exceeded || decide (budget.retained chunk previous < chunk.length) },
      { reader with
        captured := reader.captured ++ chunk.take (budget.retained chunk previous)
        phase := .reading })
  | .finished _ => (budget, reader)

/-- Whether the reader is done. -/
def OutputReader.isFinished (reader : OutputReader ε) : Bool :=
  match reader.phase with
  | .finished _ => true
  | _ => false

/-- The two streams of a process. -/
inductive OutputStream where
  | stdout
  | stderr
  deriving DecidableEq

/-- The two threads and their budget. -/
structure OutputCapture (ε : Type) where
  budget : OutputBudget
  stdout : OutputReader ε
  stderr : OutputReader ε

/-- A step of one of the threads. -/
def OutputCapture.step (capture : OutputCapture ε) : OutputStream → OutputCapture ε
  | .stdout =>
    { capture with
      budget := (capture.stdout.step capture.budget).1
      stdout := (capture.stdout.step capture.budget).2 }
  | .stderr =>
    { capture with
      budget := (capture.stderr.step capture.budget).1
      stderr := (capture.stderr.step capture.budget).2 }

/-- The threads as they start. -/
def OutputCapture.start (limit : UInt64) (stdout stderr : List (Except ε Bytes)) :
    OutputCapture ε where
  budget := { limit := limit.toNat, used := 0, exceeded := false }
  stdout := { reads := stdout, phase := .reading, captured := [] }
  stderr := { reads := stderr, phase := .reading, captured := [] }

/-- The turns that the readers take, one after the other. -/
def OutputCapture.run (capture : OutputCapture ε) (turns : List OutputStream) : OutputCapture ε :=
  turns.foldl OutputCapture.step capture

/-- The bytes that a stream has up to its end, or to the error that ends it. -/
def delivered : List (Except ε Bytes) → Bytes
  | [] | .ok [] :: _ | .error _ :: _ => []
  | .ok (byte :: chunk) :: reads => byte :: chunk ++ delivered reads

/-! ## What a thread has counted -/

/-- What a thread has read or can read, and has not counted. -/
def OutputReader.uncounted (reader : OutputReader ε) : Bytes :=
  match reader.phase with
  | .reading | .retaining _ _ => delivered reader.reads
  | .counting chunk => chunk ++ delivered reader.reads
  | .finished _ => []

/-- What a thread has kept, and what it is about to keep. -/
def OutputReader.allotted (limit : ℕ) (reader : OutputReader ε) : ℕ :=
  match reader.phase with
  | .retaining chunk previous => reader.captured.length + min (limit - previous) chunk.length
  | _ => reader.captured.length

/-- A thread is about to keep less than it counted. -/
def OutputReader.Truncates (limit : ℕ) (reader : OutputReader ε) : Prop :=
  match reader.phase with
  | .retaining chunk previous => min (limit - previous) chunk.length < chunk.length
  | _ => False

/-- What a thread has captured of what it has counted. -/
def OutputReader.CapturedOf (limit : ℕ) (reader : OutputReader ε) (counted : Bytes) : Prop :=
  match reader.phase with
  | .retaining chunk previous => ∃ before, counted = before ++ chunk ∧
      reader.captured <+: before ∧ (previous < limit → reader.captured = before)
  | _ => reader.captured <+: counted

/-- A thread of a stream that has counted so many of its bytes. -/
structure Own (limit : ℕ) (reads : List (Except ε Bytes)) (reader : OutputReader ε)
    (counted : Bytes) : Prop where
  all : delivered reads = counted ++ reader.uncounted
  captured : reader.CapturedOf limit counted

/-- What is captured is the beginning of what is counted. -/
theorem Own.captured_prefix {limit : ℕ} {reads : List (Except ε Bytes)} {reader : OutputReader ε}
    {counted : Bytes} (h : Own limit reads reader counted) : reader.captured <+: counted := by
  have hcaptured := h.captured
  unfold OutputReader.CapturedOf at hcaptured
  split at hcaptured
  · obtain ⟨before, rfl, hbefore, -⟩ := hcaptured
    exact hbefore.trans (List.prefix_append _ _)
  · exact hcaptured

/-- What is allotted to a thread is no more than it has counted. -/
theorem Own.allotted_le {limit : ℕ} {reads : List (Except ε Bytes)} {reader : OutputReader ε}
    {counted : Bytes} (h : Own limit reads reader counted) :
    reader.allotted limit ≤ counted.length := by
  have hcaptured := h.captured
  unfold OutputReader.CapturedOf at hcaptured
  unfold OutputReader.allotted
  split at hcaptured
  · obtain ⟨before, rfl, hbefore, -⟩ := hcaptured
    have hle := hbefore.length_le
    rw [List.length_append]
    omega
  · exact hcaptured.length_le

/-! ## What the threads share -/

/-- The budget, between two threads that have counted `n` and `m` bytes. -/
structure Shared (limit : ℕ) (budget : OutputBudget) (reader other : OutputReader ε) (n m : ℕ) :
    Prop where
  limit_eq : budget.limit = limit
  used_eq : budget.used = min (n + m) (saturatingAdd limit 1)
  allotted_eq : reader.allotted limit + other.allotted limit = min (n + m) limit
  sound : budget.exceeded = true ∨ reader.Truncates limit ∨ other.Truncates limit → limit < n + m
  complete : limit < n + m → budget.exceeded = true ∨ reader.Truncates limit ∨ other.Truncates limit

/-- The budget does not tell its readers apart. -/
theorem Shared.swap {limit : ℕ} {budget : OutputBudget} {reader other : OutputReader ε} {n m : ℕ}
    (h : Shared limit budget reader other n m) : Shared limit budget other reader m n where
  limit_eq := h.limit_eq
  used_eq := by rw [h.used_eq, Nat.add_comm]
  allotted_eq := by rw [Nat.add_comm, h.allotted_eq, Nat.add_comm m]
  sound := fun hor => Nat.add_comm n m ▸ h.sound (hor.imp_right Or.symm)
  complete := fun hlt => (h.complete (Nat.add_comm m n ▸ hlt)).imp_right Or.symm

/-- A step of a thread keeps its own part, and what it shares with the other thread. -/
theorem Shared.step {limit m : ℕ} (hlimit : limit ≤ usizeMax) {budget : OutputBudget}
    {reader other : OutputReader ε} {counted : Bytes} {reads : List (Except ε Bytes)}
    (hown : Own limit reads reader counted)
    (hother : other.allotted limit ≤ m)
    (h : Shared limit budget reader other counted.length m) :
    ∃ counted', Own limit reads (reader.step budget).2 counted' ∧
      Shared limit (reader.step budget).1 (reader.step budget).2 other counted'.length m := by
  obtain ⟨rest, phase, captured⟩ := reader
  have hle := hown.allotted_le
  obtain ⟨hall, hcaptured⟩ := hown
  obtain ⟨hlimit', hused, hallotted, hsound, hcomplete⟩ := h
  cases phase with
  | reading =>
    refine ⟨counted, ?_⟩
    -- Nothing is counted or kept yet, whatever is read.
    rcases rest with _ | ⟨error | chunk, rest⟩
    · exact ⟨⟨hall, hcaptured⟩, hlimit', hused, hallotted, hsound, hcomplete⟩
    · exact ⟨⟨hall, hcaptured⟩, hlimit', hused, hallotted, hsound, hcomplete⟩
    · cases chunk with
      | nil => exact ⟨⟨hall, hcaptured⟩, hlimit', hused, hallotted, hsound, hcomplete⟩
      | cons byte chunk => exact ⟨⟨hall, hcaptured⟩, hlimit', hused, hallotted, hsound, hcomplete⟩
  | counting chunk =>
    have hlength : (counted ++ chunk).length = counted.length + chunk.length := List.length_append
    have hcap : saturatingAdd limit 1 = min (limit + 1) usizeMax := rfl
    have hcount : saturatingAdd budget.used chunk.length =
        min (budget.used + chunk.length) usizeMax := rfl
    have hbefore : captured.length + other.allotted limit = min (counted.length + m) limit :=
      hallotted
    have hkept : captured.length ≤ counted.length := hle
    have hprefix : captured <+: counted := hcaptured
    generalize usizeMax = bound at hlimit hcap hcount
    refine ⟨counted ++ chunk, ⟨?_, counted, rfl, hprefix, fun hlt => ?_⟩, hlimit', ?_, ?_, ?_, ?_⟩
    · rw [hall, List.append_assoc]
      rfl
    · -- Where the budget is not used up, everything that was counted is captured.
      refine hprefix.eq_of_length ?_
      omega
    · show min (saturatingAdd budget.used chunk.length) (saturatingAdd budget.limit 1) = _
      rw [hcount, hlimit', hlength, hused, hcap]
      omega
    · show captured.length + min (limit - budget.used) chunk.length + other.allotted limit = _
      rw [hlength, hused, hcap]
      omega
    · rintro (hexceeded | htruncates | htruncates)
      · have := hsound (.inl hexceeded)
        omega
      · have hshort : min (limit - budget.used) chunk.length < chunk.length := htruncates
        rw [hused, hcap] at hshort
        omega
      · have := hsound (.inr (.inr htruncates))
        omega
    · intro hlt
      rw [hlength] at hlt
      by_cases hover : limit < counted.length + m
      · rcases hcomplete hover with hexceeded | htruncates | htruncates
        · exact .inl hexceeded
        · exact absurd htruncates id
        · exact .inr (.inr htruncates)
      · refine .inr (.inl ?_)
        show min (limit - budget.used) chunk.length < chunk.length
        rw [hused, hcap]
        omega
  | retaining chunk previous =>
    obtain ⟨before, rfl, hprefix, hexact⟩ := hcaptured
    dsimp only at hprefix hexact
    have hretained : budget.retained chunk previous = min (limit - previous) chunk.length := by
      rw [OutputBudget.retained, hlimit']
    refine ⟨before ++ chunk, ⟨hall, ?_⟩, hlimit', hused, ?_, ?_, ?_⟩
    · show captured ++ chunk.take (budget.retained chunk previous) <+: before ++ chunk
      rw [hretained]
      by_cases hlt : previous < limit
      · rw [hexact hlt]
        exact (List.prefix_append_right_inj _).mpr (List.take_prefix _ _)
      · have hzero : min (limit - previous) chunk.length = 0 := by omega
        rw [hzero, List.take_zero, List.append_nil]
        exact hprefix.trans (List.prefix_append _ _)
    · show (captured ++ chunk.take (budget.retained chunk previous)).length + _ = _
      rw [List.length_append, List.length_take, hretained, Nat.min_assoc, Nat.min_self]
      exact hallotted
    · rintro (hexceeded | htruncates | htruncates)
      · have hor : budget.exceeded = true ∨
            min (limit - previous) chunk.length < chunk.length := by
          simpa [OutputReader.step, hretained] using hexceeded
        exact hsound (hor.imp_right .inl)
      · exact absurd htruncates id
      · exact hsound (.inr (.inr htruncates))
    · intro hlt
      have hflag : ∀ flag : Bool, flag = true ∨ min (limit - previous) chunk.length < chunk.length →
          (flag || decide (budget.retained chunk previous < chunk.length)) = true := by
        intro flag hor
        rw [hretained, Bool.or_eq_true, decide_eq_true_eq]
        exact hor
      rcases hcomplete hlt with hexceeded | htruncates | htruncates
      · exact .inl (hflag _ (.inl hexceeded))
      · exact .inl (hflag _ (.inr htruncates))
      · exact .inr (.inr htruncates)
  | finished result =>
    exact ⟨counted, ⟨hall, hcaptured⟩, hlimit', hused, hallotted, hsound, hcomplete⟩

/-! ## Runs -/

/-- Both threads, with what they have counted. -/
def Captures (limit : ℕ) (stdout stderr : List (Except ε Bytes))
    (capture : OutputCapture ε) : Prop :=
  ∃ out err, Own limit stdout capture.stdout out ∧ Own limit stderr capture.stderr err ∧
    Shared limit capture.budget capture.stdout capture.stderr out.length err.length

/-- The invariant holds at the start. -/
theorem captures_start (limit : UInt64) (stdout stderr : List (Except ε Bytes)) :
    Captures limit.toNat stdout stderr (.start limit stdout stderr) := by
  refine ⟨[], [], ⟨rfl, List.nil_prefix⟩, ⟨rfl, List.nil_prefix⟩, rfl, ?_, ?_, ?_, ?_⟩
  · exact (Nat.zero_min _).symm
  · exact (Nat.zero_min _).symm
  · rintro (h | h | h)
    · cases h
    · exact absurd h id
    · exact absurd h id
  · exact fun h => absurd h (Nat.not_lt_zero _)

/-- A turn of either reader keeps the invariant. -/
theorem Captures.step {limit : ℕ} (hlimit : limit ≤ usizeMax)
    {stdout stderr : List (Except ε Bytes)}
    {capture : OutputCapture ε} (h : Captures limit stdout stderr capture) (turn : OutputStream) :
    Captures limit stdout stderr (capture.step turn) := by
  obtain ⟨out, err, hout, herr, hshared⟩ := h
  cases turn with
  | stdout =>
    obtain ⟨out', hout', hshared'⟩ := hshared.step hlimit hout herr.allotted_le
    exact ⟨out', err, hout', herr, hshared'⟩
  | stderr =>
    obtain ⟨err', herr', hshared'⟩ := hshared.swap.step hlimit herr hout.allotted_le
    exact ⟨out, err', hout, herr', hshared'.swap⟩

/-- The invariant holds along every order of turns. -/
theorem Captures.run {limit : ℕ} (hlimit : limit ≤ usizeMax) {stdout stderr : List (Except ε Bytes)}
    {capture : OutputCapture ε} (h : Captures limit stdout stderr capture)
    (turns : List OutputStream) : Captures limit stdout stderr (capture.run turns) := by
  induction turns generalizing capture with
  | nil => exact h
  | cons turn rest ih => exact ih (h.step hlimit turn)

/-- How many more steps a thread takes. -/
def OutputReader.remaining (reader : OutputReader ε) : ℕ :=
  match reader.phase with
  | .reading => 3 * reader.reads.length + 1
  | .counting _ => 3 * reader.reads.length + 3
  | .retaining _ _ => 3 * reader.reads.length + 2
  | .finished _ => 0

/-- A step leaves the reader less to do. -/
theorem OutputReader.remaining_step (budget : OutputBudget) (reader : OutputReader ε) :
    (reader.step budget).2.remaining ≤ reader.remaining - 1 := by
  obtain ⟨reads, phase, captured⟩ := reader
  cases phase with
  | reading =>
    rcases reads with _ | ⟨error | chunk, reads⟩
    · exact Nat.zero_le _
    · exact Nat.zero_le _
    · cases chunk with
      | nil => exact Nat.zero_le _
      | cons byte chunk =>
        show 3 * reads.length + 3 ≤ 3 * (reads.length + 1) + 1 - 1
        omega
  | counting chunk => exact le_rfl
  | retaining chunk previous => exact le_rfl
  | finished result => exact le_rfl

/-- A thread that takes enough steps ends. -/
theorem OutputCapture.remaining_run (capture : OutputCapture ε) (turns : List OutputStream) :
    (capture.run turns).stdout.remaining ≤ capture.stdout.remaining - turns.count .stdout ∧
      (capture.run turns).stderr.remaining ≤ capture.stderr.remaining - turns.count .stderr := by
  induction turns generalizing capture with
  | nil => exact ⟨le_rfl, le_rfl⟩
  | cons turn rest ih =>
    obtain ⟨hout, herr⟩ := ih (capture.step turn)
    cases turn with
    | stdout =>
      have hstep := capture.stdout.remaining_step capture.budget
      refine ⟨hout.trans ?_, herr⟩
      rw [List.count_cons_self]
      show (capture.stdout.step capture.budget).2.remaining - _ ≤ _
      omega
    | stderr =>
      have hstep := capture.stderr.remaining_step capture.budget
      refine ⟨hout, herr.trans ?_⟩
      rw [List.count_cons_self]
      show (capture.stderr.step capture.budget).2.remaining - _ ≤ _
      omega

/-- A reader with nothing to do is done. -/
theorem OutputReader.isFinished_of_remaining {reader : OutputReader ε} (h : reader.remaining = 0) :
    reader.isFinished = true := by
  obtain ⟨reads, phase, captured⟩ := reader
  cases phase with
  | finished result => rfl
  | _ => exact absurd h (by simp [remaining])

/-- A reader that is done has nothing left to count, and cuts nothing off. -/
theorem OutputReader.uncounted_of_isFinished {reader : OutputReader ε}
    (h : reader.isFinished = true) :
    reader.uncounted = [] ∧ ∀ limit, reader.allotted limit = reader.captured.length ∧
      ¬reader.Truncates limit := by
  obtain ⟨reads, phase, captured⟩ := reader
  cases phase with
  | finished result => exact ⟨rfl, fun _ => ⟨rfl, id⟩⟩
  | _ => cases h

/-- However the two streams are cut into chunks, and whatever the order of the threads' steps, what
they keep together stays within the limit, and each keeps a start of its own stream. The threads end
once they have had enough turns. Then the flag is set exactly where the streams are too long
together, and streams that are not are kept whole. -/
theorem output_shared (limit : UInt64) (stdout stderr : List (Except ε Bytes))
    (turns : List OutputStream) :
    let capture := (OutputCapture.start limit stdout stderr).run turns
    let size := (delivered stdout).length + (delivered stderr).length
    capture.stdout.captured.length + capture.stderr.captured.length ≤ limit.toNat ∧
      capture.stdout.captured <+: delivered stdout ∧
      capture.stderr.captured <+: delivered stderr ∧
      (3 * stdout.length + 1 ≤ turns.count .stdout → capture.stdout.isFinished = true) ∧
      (3 * stderr.length + 1 ≤ turns.count .stderr → capture.stderr.isFinished = true) ∧
      (capture.stdout.isFinished = true → capture.stderr.isFinished = true →
        (capture.budget.exceeded = true ↔ limit.toNat < size) ∧
          (size ≤ limit.toNat →
            capture.stdout.captured = delivered stdout ∧
              capture.stderr.captured = delivered stderr)) := by
  intro capture size
  have hlimit : limit.toNat ≤ usizeMax := Nat.le_sub_one_of_lt limit.toNat_lt
  -- Each reader has counted some front of its stream, and the budget has counted both.
  obtain ⟨out, err, hout, herr, hshared⟩ :=
    (captures_start limit stdout stderr).run hlimit turns
  -- A reader captures no more than it was allotted.
  have hkept : ∀ reader : OutputReader ε, reader.captured.length ≤ reader.allotted limit.toNat := by
    intro reader
    unfold OutputReader.allotted
    split
    · exact Nat.le_add_right _ _
    · exact le_rfl
  have houtPrefix : capture.stdout.captured <+: delivered stdout :=
    hout.all ▸ hout.captured_prefix.trans (List.prefix_append _ _)
  have herrPrefix : capture.stderr.captured <+: delivered stderr :=
    herr.all ▸ herr.captured_prefix.trans (List.prefix_append _ _)
  have hsum : capture.stdout.allotted limit.toNat + capture.stderr.allotted limit.toNat =
      min (out.length + err.length) limit.toNat := hshared.allotted_eq
  obtain ⟨houtEnds, herrEnds⟩ :
      capture.stdout.remaining ≤ 3 * stdout.length + 1 - turns.count .stdout ∧
        capture.stderr.remaining ≤ 3 * stderr.length + 1 - turns.count .stderr :=
    OutputCapture.remaining_run (OutputCapture.start limit stdout stderr) turns
  refine ⟨?_, houtPrefix, herrPrefix, fun henough => ?_, fun henough => ?_,
    fun hended hended' => ?_⟩
  · have hout' := hkept capture.stdout
    have herr' := hkept capture.stderr
    omega
  · exact OutputReader.isFinished_of_remaining (by omega)
  · exact OutputReader.isFinished_of_remaining (by omega)
  · -- Both have counted their whole streams.
    obtain ⟨hnone, hstdout⟩ := OutputReader.uncounted_of_isFinished hended
    obtain ⟨hnone', hstderr⟩ := OutputReader.uncounted_of_isFinished hended'
    obtain ⟨houtAllotted, houtWhole⟩ := hstdout limit.toNat
    obtain ⟨herrAllotted, herrWhole⟩ := hstderr limit.toNat
    have houtAll : delivered stdout = out := by rw [hout.all, hnone, List.append_nil]
    have herrAll : delivered stderr = err := by rw [herr.all, hnone', List.append_nil]
    have hsize : size = out.length + err.length := by rw [← houtAll, ← herrAll]
    refine ⟨⟨fun hexceeded => hsize ▸ hshared.sound (.inl hexceeded), fun hlt => ?_⟩, fun hle => ?_⟩
    · rcases hshared.complete (hsize ▸ hlt) with hexceeded | htruncates | htruncates
      · exact hexceeded
      · exact absurd htruncates houtWhole
      · exact absurd htruncates herrWhole
    · have hlength := houtPrefix.length_le
      have hlength' := herrPrefix.length_le
      rw [houtAll] at houtPrefix hlength ⊢
      rw [herrAll] at herrPrefix hlength' ⊢
      exact ⟨houtPrefix.eq_of_length (by omega), herrPrefix.eq_of_length (by omega)⟩

end Mio.Launcher
