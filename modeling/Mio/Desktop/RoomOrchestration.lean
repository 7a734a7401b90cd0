import Mio.Core.ConductorRuns
import Mio.Desktop.RoomOrchestrationRuns
import Mio.Desktop.Time

/-!
# The final answer of an orchestration

The last step of `apps/desktop/src-tauri/src/room_orchestration.rs`: an accepted answer becomes the
draft of a Room message, which is appended. The plan's parser and the conductor's operation accept
answers of up to 100,000 bytes, and a draft has at most 4,000. So `save_final` can save an accepted
answer exactly when it has at most 4,000 bytes (`final_saved_iff`).
-/

namespace Mio.Desktop.RoomOrchestration

open Library Mio.Core Mio.Core.Conductor RoomOrchestrationLedger Time

/-- How an orchestration ended. -/
inductive RoomOrchestrationStatus where
  | completed
  | duplicate
  | failed
  | unknown
  deriving DecidableEq

/-- The answer of an orchestration. -/
structure RoomOrchestrationResult where
  ok : Bool
  operationId : String
  status : RoomOrchestrationStatus
  finalMessage : Option RoomMessage
  deriving DecidableEq

/-- An error as the application shows it. -/
structure RoomOrchestrationCommandError where
  code : String
  message : String
  deriving DecidableEq

/-- The error of a part that could not be used. -/
def unavailable : RoomOrchestrationCommandError where
  code := "roomOrchestrationUnavailable"
  message := "Room orchestration is temporarily unavailable."

/-- The answer with the status. -/
def result (operationId : String) (status : RoomOrchestrationStatus)
    (finalMessage : Option RoomMessage) : RoomOrchestrationResult where
  ok := status == .completed || status == .duplicate
  operationId := operationId
  status := status
  finalMessage := finalMessage

/-- The mark of an operation whose end is unknown. What the ledger answers is not looked at. -/
def markUnknown (operationId : String) (clock : Clock) : List LedgerCall :=
  match currentRfc3339Timestamp clock with
  | some updatedAt => [.markUnknown operationId updatedAt]
  | none => []

/-- The draft that `save_final` builds. -/
def finalDraft (record : RoomOrchestrationRecord) (conductorId ownerId answer createdAt : String) :
    Except RoomMessageDraftError RoomMessageDraft :=
  RoomMessageDraft.tryNew record.finalMessageId record.roomId conductorId
    [ownerId] answer createdAt []

/-- The result of `save_final`, and its calls of the ledger. `append` is what the Room source
answers for the draft, and the clock is read twice. -/
def saveFinal (append : RoomMessageDraft → Except RoomWriteError RoomWriteSuccess)
    (first second : Clock) (record : RoomOrchestrationRecord)
    (conductorId ownerId answer : String) :
    Except RoomOrchestrationCommandError RoomOrchestrationResult × List LedgerCall :=
  let unknown := (.ok (result record.operationId .unknown none),
    markUnknown record.operationId second)
  match currentRfc3339Timestamp first with
  | none => (.error unavailable, [])
  | some createdAt =>
    match finalDraft record conductorId ownerId answer createdAt with
    | .error _ => unknown
    | .ok draft =>
      match append draft with
      | .error _ => unknown
      | .ok saved =>
        match currentRfc3339Timestamp second with
        | none => (.error unavailable, [])
        | some updatedAt =>
          let status :=
            match saved.status with
            | .appended => .completed
            | .duplicate => .duplicate
          (.ok (result record.operationId status (some saved.message)),
            [.markCompleted record.operationId updatedAt])

/-! ## The answers that are accepted -/

/-- The answer is the conductor's, from a plan that the parser accepts or as a synthesis that a
reachable operation accepts. -/
inductive Accepted (answer : String) : Prop
  | plan (fromSlice : Bytes → Option RawConductorPlanV1) (input : Bytes)
    (context : ConductorPlanContext) (plan : ConductorPlanV1)
    (hparse : parseConductorPlanV1 fromSlice input context = .ok plan)
    (hmode : plan.mode = .answer) (hanswer : plan.directAnswer = some answer)
  | synthesis (sourceMessageId conductorId : String) (first : ConductorOperation)
    (calls : List ConductorCall) (operation : ConductorOperation)
    (hfirst : ConductorOperation.tryNew sourceMessageId conductorId = .ok first)
    (haccepted : recordSynthesis answer (ConductorCall.run calls first) = (.ok (), operation))

/-- The answer that is to be saved, if there is one, is bounded. -/
def AnswerBounded (operation : ConductorOperation) : Prop :=
  ∀ answer, operation.pendingFinalAnswer = some answer →
    validBoundedText answer maximumResultTextBytes = true

/-- Taking a plan keeps the answer bounded. -/
theorem answerBounded_acceptPlan {operation : ConductorOperation} (h : AnswerBounded operation)
    (plan : ConductorPlanV1) : AnswerBounded (acceptPlan plan operation).2 := by
  unfold acceptPlan
  split
  · split <;> exact h
  split
  · exact h
  split
  · split
    · exact h
    rename_i answer hanswer
    split
    · exact h
    · intro other hother
      obtain rfl := Option.some.inj hother
      exact (Option.filter_eq_some_iff.mp hanswer).2
  · split
    · exact h
    split <;> exact h

/-- Taking a synthesis keeps the answer bounded. -/
theorem answerBounded_recordSynthesis {operation : ConductorOperation} (h : AnswerBounded operation)
    (answer : String) : AnswerBounded (recordSynthesis answer operation).2 := by
  unfold recordSynthesis
  split
  · split <;> exact h
  split
  · exact h
  · rename_i hchecked
    intro other hother
    obtain rfl := Option.some.inj hother
    simp only [Bool.or_eq_true, not_or, Bool.not_eq_true', Bool.not_eq_false] at hchecked
    exact hchecked.2

/-- The other calls leave the answer as it is. -/
theorem answerBounded_apply {operation : ConductorOperation} (h : AnswerBounded operation)
    (call : ConductorCall) : AnswerBounded (call.apply operation).2 := by
  cases call with
  | acceptPlan plan => exact answerBounded_acceptPlan h plan
  | recordSynthesis answer => exact answerBounded_recordSynthesis h answer
  | beginPlanning =>
    simp only [ConductorCall.apply, beginPlanning]
    split <;> exact h
  | recordWorkerOutcome target outcome =>
    simp only [ConductorCall.apply, recordWorkerOutcome]
    repeat' split
    all_goals exact h
  | markFinalSaved =>
    simp only [ConductorCall.apply, markFinalSaved]
    repeat' split
    all_goals exact h
  | markFailed =>
    simp only [ConductorCall.apply, Conductor.markFailed, markEnded]
    repeat' split
    all_goals exact h
  | markExternalUnknown =>
    simp only [ConductorCall.apply, markExternalUnknown, markEnded]
    repeat' split
    all_goals exact h

/-- The answer is bounded along every run of calls. -/
theorem answerBounded_run {operation : ConductorOperation} (h : AnswerBounded operation)
    (calls : List ConductorCall) : AnswerBounded (ConductorCall.run calls operation) := by
  induction calls generalizing operation with
  | nil => exact h
  | cons call calls ih => exact ih (answerBounded_apply h call)

/-- The answer of a plan that is accepted is bounded. -/
theorem parse_bounded {fromSlice : Bytes → Option RawConductorPlanV1} {input : Bytes}
    {context : ConductorPlanContext} {plan : ConductorPlanV1} {answer : String}
    (hparse : parseConductorPlanV1 fromSlice input context = .ok plan) (hmode : plan.mode = .answer)
    (hanswer : plan.directAnswer = some answer) :
    validBoundedText answer maximumDirectAnswerBytes = true := by
  unfold parseConductorPlanV1 at hparse
  split at hparse
  · cases hparse
  split_ifs at hparse
  split at hparse
  · cases hparse
  split_ifs at hparse
  split at hparse
  · cases hparse
  dsimp only at hparse
  rename_i raw _ _ _ _
  split at hparse
  -- A plan that answers was checked against the limit, and the other mode has no answer.
  · split_ifs at hparse with hchecked
    obtain rfl := Except.ok.inj hparse
    simp only [Bool.and_eq_true] at hchecked
    dsimp only at hanswer
    rw [hanswer] at hchecked
    exact hchecked.2
  · rename_i hdelegate
    split_ifs at hparse
    split at hparse
    · cases hparse
    · obtain rfl := Except.ok.inj hparse
      rw [hdelegate] at hmode
      cases hmode

/-- An accepted answer is neither blank nor long. -/
theorem Accepted.bounded {answer : String} (h : Accepted answer) :
    validBoundedText answer maximumResultTextBytes = true := by
  cases h with
  | plan fromSlice input context plan hparse hmode hanswer =>
    exact parse_bounded hparse hmode hanswer
  | synthesis sourceMessageId conductorId first calls operation hfirst haccepted =>
    have hbounded : AnswerBounded first := by
      unfold ConductorOperation.tryNew at hfirst
      split at hfirst
      · cases hfirst
      · obtain rfl := Except.ok.inj hfirst
        intro answer hanswer
        cases hanswer
    have hrun := answerBounded_run hbounded calls
    unfold recordSynthesis at haccepted
    split at haccepted
    · rename_i existing hexisting
      split_ifs at haccepted with hsame
      · obtain rfl : existing = answer := by simpa using hsame
        exact hrun existing hexisting
      · cases haccepted
    · split_ifs at haccepted with hchecked
      · cases haccepted
      · simp only [Bool.or_eq_true, not_or, Bool.not_eq_true', Bool.not_eq_false] at hchecked
        exact hchecked.2

/-! ## The draft -/

/-- The final answer can be saved: there is a draft of it, and it is completed unless the Room
source or the clock fails. -/
structure CanBeSaved (record : RoomOrchestrationRecord) (ownerId answer : String) : Prop where
  draft : ∀ clock createdAt, currentRfc3339Timestamp clock = some createdAt →
    ∃ draft, finalDraft record record.conductorId ownerId answer createdAt = .ok draft ∧
      draft.message.body = answer ∧ draft.message.authorId = record.conductorId ∧
      draft.message.recipients = [ownerId] ∧
      draft.message.body.utf8ByteSize ≤ maximumRoomWriteBodyBytes
  completes : ∀ append first second, (∀ draft, ∃ saved, append draft = .ok saved) →
    currentRfc3339Timestamp first ≠ none → currentRfc3339Timestamp second ≠ none →
    ∃ final updatedAt,
      saveFinal append first second record record.conductorId ownerId answer =
        (.ok final, [.markCompleted record.operationId updatedAt]) ∧ final.ok = true

/-- The draft is valid exactly when its body is short. -/
theorem finalDraft_eq_ok_iff {record : RoomOrchestrationRecord} {ownerId answer createdAt : String}
    (hrecord : validateRecord record = .ok ()) (howner : Core.validIdentifier ownerId = true)
    (htime : GraphicText 24 createdAt ∧ createdAt ≠ "")
    (hanswer : validBoundedText answer maximumResultTextBytes = true) :
    (∃ draft, finalDraft record record.conductorId ownerId answer createdAt = .ok draft ∧
      draft.message =
        { id := record.finalMessageId, roomId := record.roomId, authorId := record.conductorId
          recipients := [ownerId], body := answer, createdAt := createdAt, artifactIds := []
          provenance := none }) ↔
      answer.utf8ByteSize ≤ maximumRoomWriteBodyBytes := by
  -- A valid record has valid ids, so of the draft only the answer can be refused.
  have hids : Core.validIdentifier record.finalMessageId = true ∧
      Core.validIdentifier record.roomId = true ∧
      Core.validIdentifier record.conductorId = true := by
    unfold validateRecord at hrecord
    split_ifs at hrecord with hchecked
    simp only [Bool.or_eq_true, not_or, Bool.not_eq_true', Bool.not_eq_false] at hchecked
    exact ⟨hchecked.1.1.2, hchecked.1.1.1.1.1.1.2, hchecked.1.1.1.1.2⟩
  have hcreatedAt : validText createdAt 64 = true := by
    have hsize := htime.1.utf8ByteSize_le
    have hempty : createdAt.isEmpty = false := by simpa using htime.2
    simp only [validText, hempty, Bool.not_false, Bool.true_and, decide_eq_true_eq]
    omega
  obtain ⟨hfinal, hroom, hconductor⟩ := hids
  simp only [validBoundedText, Bool.and_eq_true, Bool.not_eq_true', decide_eq_true_eq] at hanswer
  have hunique : uniqueValidIdentifiers [ownerId] = true := by
    simp [uniqueValidIdentifiers, insertDistinct, howner]
  -- The answer is not blank, so only its length is left to check.
  have hbody : validText answer maximumRoomWriteBodyBytes =
      decide (answer.utf8ByteSize ≤ maximumRoomWriteBodyBytes) := by
    have hempty : answer.isEmpty = false := by
      by_contra hempty
      have hnil : answer = "" := by simpa using hempty
      rw [hnil] at hanswer
      exact absurd hanswer.1 (by decide)
    rw [validText, hempty, Bool.not_false, Bool.true_and]
  have hartifacts : uniqueValidIdentifiers [] = true := rfl
  unfold finalDraft RoomMessageDraft.tryNew RoomMessageDraft.tryNewWithProvenance
  dsimp only
  constructor
  · rintro ⟨draft, hdraft, -⟩
    split_ifs at hdraft with hvalid
    simp only [validDraftMessage, validMessageShape, hbody, Bool.and_eq_true,
      decide_eq_true_eq] at hvalid
    exact hvalid.1.1.1.1.1.2
  · intro hsize
    rw [dif_pos]
    · exact ⟨_, rfl, rfl⟩
    · simp [validDraftMessage, validMessageShape, hbody, hfinal, hroom, hconductor, hunique,
        hcreatedAt, hartifacts, hanswer.1, hsize, maximumMessageLinks]

/-- An accepted answer can be saved exactly when it has at most 4,000 bytes. -/
theorem final_saved_iff {record : RoomOrchestrationRecord} {ownerId answer : String}
    (hrecord : validateRecord record = .ok ()) (howner : Core.validIdentifier ownerId = true)
    (haccepted : Accepted answer) :
    CanBeSaved record ownerId answer ↔ answer.utf8ByteSize ≤ maximumRoomWriteBodyBytes := by
  have hanswer := haccepted.bounded
  constructor
  · intro h
    -- Any time will do to see whether the draft can be made, so the first of all is taken.
    have hfirst : currentRfc3339Timestamp (some (0, 0)) = some "1970-01-01T00:00:00.000Z" := by
      decide
    obtain ⟨draft, -, hbody, -, -, hsize⟩ := h.draft _ _ hfirst
    rwa [hbody] at hsize
  · intro hsize
    have hdraft : ∀ clock createdAt, currentRfc3339Timestamp clock = some createdAt → _ :=
      fun clock createdAt hclock =>
        (finalDraft_eq_ok_iff hrecord howner (graphicText_current hclock) hanswer).mpr hsize
    constructor
    · intro clock createdAt hclock
      obtain ⟨draft, hok, hmessage⟩ := hdraft clock createdAt hclock
      refine ⟨draft, hok, ?_⟩
      rw [hmessage]
      exact ⟨rfl, rfl, rfl, hsize⟩
    -- With both times and a draft, the reply is appended, and then the record is marked.
    · intro append first second happend hfirst hsecond
      obtain ⟨createdAt, hcreatedAt⟩ := Option.ne_none_iff_exists'.mp hfirst
      obtain ⟨updatedAt, hupdatedAt⟩ := Option.ne_none_iff_exists'.mp hsecond
      obtain ⟨draft, hok, -⟩ := hdraft first createdAt hcreatedAt
      obtain ⟨saved, hsaved⟩ := happend draft
      unfold saveFinal
      rw [hcreatedAt, hupdatedAt]
      dsimp only
      rw [hok]
      dsimp only
      rw [hsaved]
      refine ⟨_, updatedAt, rfl, ?_⟩
      cases saved.status <;> rfl

namespace Sample

open Json RoomOrchestrationLedger.Sample

/-- A room with the owner and Codex. -/
def context : ConductorPlanContext where
  ownerId := "owner"
  conductorId := "codex"
  participants :=
    [{ id := "owner", kind := .human, canReceiveDelegation := false },
      { id := "codex", kind := .ai, canReceiveDelegation := false }]

/-- An answer of the letter `a`. -/
def letters (n : ℕ) : String := .ofList (List.replicate n 'a')

/-- The plan that answers with them. -/
def planText (n : ℕ) : String :=
  object [("version", "1"), ("mode", string "answer"), ("directAnswer", string (letters n)),
    ("delegations", "[]")]

/-- The reading of that plan. -/
def fromSlice (n : ℕ) (input : Bytes) : Option RawConductorPlanV1 :=
  if input = asBytes (planText n) then
    some { version := 1, mode := .answer, directAnswer := .string (letters n), delegations := [] }
  else none

/-- Each letter takes one byte. -/
theorem utf8ByteSize_letters (n : ℕ) : (letters n).utf8ByteSize = n := by
  have hencode : ∀ k, ((List.replicate k 'a').flatMap String.utf8EncodeChar).length = k := by
    intro k
    induction k with
    | zero => rfl
    | succ k ih =>
      have hone : (String.utf8EncodeChar 'a').length = 1 := rfl
      rw [List.replicate_succ, List.flatMap_cons, List.length_append, ih, hone]
      omega
  rw [← length_asBytes, asBytes_eq_flatMap, letters, String.toList_ofList]
  exact hencode n

/-- Such a plan is accepted, also where its answer is long. -/
theorem accepted_letters {n : ℕ} (hpos : 0 < n) (hn : n ≤ 15000) : Accepted (letters n) := by
  -- The names and the answer together are within the limit of the envelope.
  have hsize : (asBytes (planText n)).length ≤ maximumPlanBytes := by
    have hobject := utf8ByteSize_object_le [("version", "1"), ("mode", string "answer"),
      ("directAnswer", string (letters n)), ("delegations", "[]")]
    have hnames : "version".utf8ByteSize = 7 ∧ "mode".utf8ByteSize = 4 ∧
        "directAnswer".utf8ByteSize = 12 ∧ "delegations".utf8ByteSize = 11 ∧
        "1".utf8ByteSize = 1 ∧ "answer".utf8ByteSize = 6 ∧ "[]".utf8ByteSize = 2 := by
      decide
    simp only [List.map_cons, List.map_nil, List.sum_cons, List.sum_nil, utf8ByteSize_string,
      utf8ByteSize_letters] at hobject
    rw [length_asBytes]
    refine hobject.trans ?_
    simp only [maximumPlanBytes]
    omega
  -- The answer is all letters, so it is not blank.
  have hblank : isBlank (letters n) = false := by
    rw [Bool.eq_false_iff, ne_eq, isBlank_iff]
    intro hall
    have hspace := hall 'a' (by
      rw [letters, String.toList_ofList]
      exact List.mem_replicate.mpr ⟨by omega, rfl⟩)
    exact absurd hspace (by decide)
  have hbounded : validBoundedText (letters n) maximumDirectAnswerBytes = true := by
    have hmaximum : n ≤ maximumDirectAnswerBytes := by
      unfold maximumDirectAnswerBytes
      omega
    simp [validBoundedText, hblank, utf8ByteSize_letters, hmaximum]
  have hcontext : validateContext context = .ok () := by decide
  have hfrom : fromSlice n (asBytes (planText n)) =
      some { version := 1, mode := .answer, directAnswer := .string (letters n),
             delegations := [] } := if_pos rfl
  have hparse : parseConductorPlanV1 (fromSlice n) (asBytes (planText n)) context =
      .ok { version := 1, mode := .answer, directAnswer := some (letters n),
            delegations := [] } := by
    unfold parseConductorPlanV1
    rw [hcontext]
    dsimp only
    rw [if_neg (by omega), isUtf8_asBytes, hfrom]
    simp [hbounded]
  exact .plan _ _ _ _ hparse rfl rfl

end Sample

open Sample RoomOrchestrationLedger.Sample in
/-- An answer of 4000 letters can be saved. -/
theorem final_saved_iff_letters : CanBeSaved prepared "owner" (letters 4000) := by
  refine (final_saved_iff (by decide +kernel) (by decide)
    (accepted_letters (by decide) (by decide))).mpr ?_
  rw [utf8ByteSize_letters]
  decide

/-- A draft of an answer that is too long is refused, and the operation ends unknown. -/
theorem saveFinal_of_long {record : RoomOrchestrationRecord} {ownerId answer : String}
    (hlong : maximumRoomWriteBodyBytes < answer.utf8ByteSize)
    (append : RoomMessageDraft → Except RoomWriteError RoomWriteSuccess) {first second : Clock}
    {createdAt : String} (hfirst : currentRfc3339Timestamp first = some createdAt) :
    (saveFinal append first second record record.conductorId ownerId answer).1 =
      .ok (result record.operationId .unknown none) := by
  have hdraft : ∃ e, finalDraft record record.conductorId ownerId answer createdAt = .error e := by
    unfold finalDraft RoomMessageDraft.tryNew RoomMessageDraft.tryNewWithProvenance
    dsimp only
    rw [dif_neg]
    · exact ⟨_, rfl⟩
    · intro hvalid
      simp only [validDraftMessage, validMessageShape, validText, Bool.and_eq_true,
        decide_eq_true_eq] at hvalid
      have hsize := hvalid.1.1.1.1.1.2.2
      omega
  obtain ⟨e, he⟩ := hdraft
  unfold saveFinal
  rw [hfirst]
  dsimp only
  rw [he]

open Sample RoomOrchestrationLedger.Sample in
/-- An answer of 4,001 bytes is accepted, and its operation ends unknown however the Room source
answers. -/
theorem long_answer_unknown :
    Accepted (letters 4001) ∧ validateRecord prepared = .ok () ∧ ∀ append first second createdAt,
      currentRfc3339Timestamp first = some createdAt →
        (saveFinal append first second prepared prepared.conductorId "owner" (letters 4001)).1 =
          .ok (result prepared.operationId .unknown none) := by
  refine ⟨accepted_letters (by decide) (by decide), by decide +kernel, ?_⟩
  intro append first second createdAt hfirst
  have hlong : maximumRoomWriteBodyBytes < (letters 4001).utf8ByteSize := by
    rw [utf8ByteSize_letters]
    decide
  exact saveFinal_of_long hlong append hfirst

end Mio.Desktop.RoomOrchestration
