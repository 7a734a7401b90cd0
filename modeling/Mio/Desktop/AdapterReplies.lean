import Mio.Desktop.AiDispatchChecks
import Mio.Desktop.BundledRooms
import Mio.Desktop.TextAdapters
import Mio.Library.TextSize

/-!
# The replies that can be stored

A dispatch makes the reply of an adapter the body of a message. The adapters of the command line
providers count characters, the driver of Codex and the room count bytes. The reply to a chat always
fits, and so does the text of Codex. That of a Grok review fits where its text has at most 4000
bytes, and the images of a turn of Codex fit where no two of them are the same and there are at most
100 (`reply_storable_iff`).
-/

namespace Mio.Desktop.TextAdapters

open Library Mio.Core Time CommandExecution CodexAppServer
open AiDispatch (TextTurnError TextTurnResponse TextTurnContinuity aiParticipantIds replyMessageId)

/-! ## Drafts -/

/-- An identifier that goes on with letters, digits, and dashes is one as long as it fits. -/
theorem validIdentifier_append {s t : String} (hs : validIdentifier s = true)
    (hsize : s.utf8ByteSize + t.utf8ByteSize ≤ 128) (ht : AiDispatch.PlainText t) :
    validIdentifier (s ++ t) = true := by
  refine boundedBytes_append hs hsize fun byte hbyte index hindex => ?_
  have hmark := ht byte hbyte
  simp only [AiDispatch.isPlain, Bool.or_eq_true, beq_iff_eq] at hmark
  simp only [Bool.or_eq_true, Bool.and_eq_true, beq_iff_eq, decide_eq_true_eq]
  tauto

/-- The identifier of a reply by a participant of the product is a valid one. -/
theorem replyMessageId_valid {recipientId : String} (h : recipientId ∈ aiParticipantIds)
    (sourceMessageId : String) :
    validIdentifier (replyMessageId sourceMessageId recipientId) = true := by
  obtain ⟨-, hsize, hplain⟩ := AiDispatch.aiParticipantIds_plain h
  unfold replyMessageId
  obtain ⟨hhexSize, hhex⟩ := AiDispatch.lowerHex16_digits
    (AiDispatch.fnv (asBytes sourceMessageId ++ 0 :: asBytes recipientId))
  generalize Conductor.lowerHex16 _ = hex at hhexSize hhex ⊢
  have hreply : validIdentifier "reply-" = true := by decide
  have hreplySize : "reply-".utf8ByteSize = 6 := rfl
  have hdashSize : "-".utf8ByteSize = 1 := rfl
  have hid : s!"reply-{recipientId}-{hex}" = "reply-" ++ (recipientId ++ "-" ++ hex) := by
    rw [← String.append_assoc, ← String.append_assoc]
    rfl
  rw [hid]
  refine validIdentifier_append hreply ?_ ?_
  · rw [String.utf8ByteSize_append, String.utf8ByteSize_append]
    omega
  · simp only [AiDispatch.plainText_append]
    exact ⟨⟨hplain, AiDispatch.plainText_dash⟩, hhex⟩

/-- The draft of a reply. -/
def replyDraft (sourceMessage : RoomMessage) (participantId createdAt : String)
    (response : TextTurnResponse) : Except RoomMessageDraftError RoomMessageDraft :=
  RoomMessageDraft.tryNew (replyMessageId sourceMessage.id participantId) sourceMessage.roomId
    participantId [sourceMessage.authorId] response.text createdAt response.artifactIds

section Drafts

variable {snapshot : RoomSnapshot} {sourceMessage : RoomMessage} {participantId createdAt : String}
  {clock : Clock} {response : TextTurnResponse}

/-- A reply to a message of the rooms is drafted where its text and its artifacts allow it. -/
theorem exists_replyDraft_iff (hs : ValidSnapshot snapshot)
    (hsource : sourceMessage ∈ snapshot.messages) (hparticipant : participantId ∈ aiParticipantIds)
    (hclock : currentRfc3339Timestamp clock = some createdAt)
    (htext : isBlank response.text = false) :
    (∃ draft, replyDraft sourceMessage participantId createdAt response = .ok draft) ↔
      response.text.utf8ByteSize ≤ maximumRoomWriteBodyBytes ∧
        response.artifactIds.length ≤ maximumMessageLinks ∧
          uniqueValidIdentifiers response.artifactIds = true := by
  obtain ⟨room, hroom, hmessage⟩ := List.mem_flatMap.mp hsource
  -- The fields of the draft that do not come from the response are valid, so only the response
  -- decides.
  have hvalid := (hs.rooms room hroom).messages sourceMessage hmessage
  have hne : response.text ≠ "" := by
    intro hempty
    rw [hempty] at htext
    exact absurd htext (by decide)
  have htimestamp : validText createdAt 64 = true := by
    obtain ⟨hgraphic, hcreated⟩ := graphicText_current hclock
    have hbytes := hgraphic.utf8ByteSize_le
    exact validText_iff.mpr ⟨hcreated, by omega⟩
  have hauthor : validIdentifier participantId = true := by
    have hall : ∀ id ∈ aiParticipantIds, validIdentifier id = true := by decide
    exact hall participantId hparticipant
  have hrecipients : uniqueValidIdentifiers [sourceMessage.authorId] = true :=
    uniqueValidIdentifiers_iff.mpr
      ⟨by simpa using hvalid.shape.authorId, List.nodup_singleton _⟩
  unfold replyDraft RoomMessageDraft.tryNew RoomMessageDraft.tryNewWithProvenance
  dsimp only
  constructor
  · rintro ⟨draft, hdraft⟩
    split at hdraft
    · rename_i hmessage
      simp only [validDraftMessage, Bool.and_eq_true, validMessageShape_iff] at hmessage
      obtain ⟨⟨hshape, -⟩, -⟩ := hmessage
      exact ⟨(validText_iff.mp hshape.body).2, hshape.artifactIds_length, hshape.artifactIds⟩
    · cases hdraft
  · rintro ⟨hsize, hlength, hunique⟩
    rw [dif_pos]
    · exact ⟨_, rfl⟩
    · simp only [validDraftMessage, Bool.and_eq_true, Bool.not_eq_true', validMessageShape_iff]
      refine ⟨⟨?_, htext⟩, rfl⟩
      exact
        { id := replyMessageId_valid hparticipant _
          roomId := hvalid.shape.roomId
          authorId := hauthor
          recipients_length := by simp [maximumMessageLinks]
          recipients := hrecipients
          body := validText_iff.mpr ⟨hne, hsize⟩
          createdAt := htimestamp
          artifactIds_length := hlength
          artifactIds := hunique }

end Drafts

/-! ## What an adapter accepts -/

/-- What a provider has put out when its adapter makes a reply of it. A turn of Codex has the images
that the store of artifacts has taken for its paths. -/
inductive ProviderOutput where
  | grok (isReview : Bool) (output : ProcessOutput)
  | gemini (output : ProcessOutput)
  | claude (output : ProcessOutput)
  | codex (turn : CompletedTurn) (images : List Bytes) (threadId : String)
    (continuity : Option TextTurnContinuity)

namespace ProviderOutput

/-- The participant that a provider's output is of. -/
def participantId : ProviderOutput → String
  | grok _ _ => AiDispatch.grokParticipantId
  | gemini _ => AiDispatch.geminiSearchParticipantId
  | claude _ => AiDispatch.claudeCodeParticipantId
  | codex _ _ _ _ => AiDispatch.codexParticipantId

/-- It is a participant of the product. -/
theorem participantId_mem (output : ProviderOutput) : output.participantId ∈ aiParticipantIds := by
  cases output <;> simp [participantId, aiParticipantIds]

variable (env : CodexSurroundings) (fromSlice : Bytes → Option Value)

/-- The reply that the adapter returns. -/
def response : ProviderOutput → Except TextTurnError TextTurnResponse
  | grok isReview output => Grok.response fromSlice isReview output
  | gemini output => Gemini.response fromSlice output
  | claude output => Claude.response fromSlice output
  | codex turn images threadId continuity =>
    if acceptsTurn turn then .ok (turnResponse env turn images threadId continuity)
    else .error .invalidResponse

/-- The output fits into a message of the room. -/
def Fits : ProviderOutput → Prop
  | grok true output => ∀ value text, fromSlice output.stdout.bytes = some value →
      value.str "text" = some text → (trim text).utf8ByteSize ≤ maximumRoomWriteBodyBytes
  | grok false _ | gemini _ | claude _ => True
  | codex _ images _ _ =>
    images.length ≤ maximumMessageLinks ∧ (images.map (artifactId env)).Nodup

end ProviderOutput

/-- The text of a reply is trimmed, and not blank. -/
theorem replyText_eq_some {value : Value} {name text : String} {maximumChars : ℕ}
    (h : replyText value name maximumChars = some text) :
    ∃ original, value.str name = some original ∧ text = trim original ∧ isBlank text = false ∧
      text.length ≤ maximumChars := by
  obtain ⟨hmap, hfits⟩ := Option.filter_eq_some_iff.mp h
  obtain ⟨original, horiginal, rfl⟩ := Option.map_eq_some_iff.mp hmap
  simp only [Bool.and_eq_true, Bool.not_eq_true', decide_eq_true_eq] at hfits
  exact ⟨original, horiginal, rfl, isBlank_trim hfits.1, hfits.2⟩

/-- A reply is the trimmed text of the output, under its name, and within the limit. -/
structure RepliesWith (fromSlice : Bytes → Option Value) (name : String) (maximumChars : ℕ)
    (bytes : Bytes) (response : TextTurnResponse) : Prop where
  text : ∃ value original, fromSlice bytes = some value ∧ value.str name = some original ∧
    response.text = trim original
  notBlank : isBlank response.text = false
  length : response.text.length ≤ maximumChars
  artifactIds : response.artifactIds = []

section Replies

variable {fromSlice : Bytes → Option Value} {response : TextTurnResponse}

/-- What is parsed of Grok's output is the text that it replies with. -/
theorem Grok.parseResponse_ok {bytes : Bytes} {maximumChars : ℕ}
    (h : parseResponse fromSlice bytes maximumChars = .ok response) :
    RepliesWith fromSlice "text" maximumChars bytes response := by
  unfold parseResponse at h
  split at h
  · cases h
  rename_i value hvalue
  split at h
  · cases h
  split at h
  · cases h
  rename_i text htext
  obtain ⟨original, horiginal, htrim, hblank, hlength⟩ := replyText_eq_some htext
  split at h
  · cases h
  split at h
  · cases h
  obtain rfl := Except.ok.inj h
  exact ⟨⟨value, original, hvalue, horiginal, htrim⟩, hblank, hlength, rfl⟩

/-- What Grok's adapter returns is the text that its output replies with. -/
theorem Grok.response_ok {isReview : Bool} {output : ProcessOutput}
    (h : Grok.response fromSlice isReview output = .ok response) :
    RepliesWith fromSlice "text" (maximumChars isReview) output.stdout.bytes response := by
  unfold Grok.response at h
  split at h
  · cases h
  · exact parseResponse_ok h

/-- What Gemini's adapter returns is the text that its output replies with. -/
theorem Gemini.response_ok {output : ProcessOutput}
    (h : Gemini.response fromSlice output = .ok response) :
    RepliesWith fromSlice "response" maximumResponseChars output.stdout.bytes response := by
  unfold Gemini.response parseResponse at h
  split at h
  · cases h
  split at h
  · cases h
  rename_i value hvalue
  split at h
  · cases h
  split at h
  · cases h
  rename_i text htext
  obtain ⟨original, horiginal, htrim, hblank, hlength⟩ := replyText_eq_some htext
  split at h
  · cases h
  obtain rfl := Except.ok.inj h
  exact ⟨⟨value, original, hvalue, horiginal, htrim⟩, hblank, hlength, rfl⟩

/-- What Claude's adapter returns is the text that its output replies with. -/
theorem Claude.response_ok {output : ProcessOutput}
    (h : Claude.response fromSlice output = .ok response) :
    RepliesWith fromSlice "result" maximumResponseChars output.stdout.bytes response := by
  unfold Claude.response parseResponse at h
  split at h
  · cases h
  split at h
  · cases h
  rename_i value hvalue
  split at h
  · cases h
  split at h
  · cases h
  rename_i text htext
  obtain ⟨original, horiginal, htrim, hblank, hlength⟩ := replyText_eq_some htext
  split at h
  · cases h
  obtain rfl := Except.ok.inj h
  exact ⟨⟨value, original, hvalue, horiginal, htrim⟩, hblank, hlength, rfl⟩

/-- A chat fits: 800 characters have at most 3200 bytes. -/
theorem RepliesWith.fits {name : String} {bytes : Bytes}
    (h : RepliesWith fromSlice name maximumResponseChars bytes response) :
    response.text.utf8ByteSize ≤ maximumRoomWriteBodyBytes := by
  have hbytes := utf8ByteSize_le_four_mul response.text
  have hlength : response.text.length ≤ 800 := h.length
  show _ ≤ 4000
  omega

/-- A reply without artifacts is stored where its text fits. -/
theorem RepliesWith.storable_iff {name : String} {maximumChars : ℕ} {bytes : Bytes}
    (h : RepliesWith fromSlice name maximumChars bytes response) :
    (response.text.utf8ByteSize ≤ maximumRoomWriteBodyBytes ∧
        response.artifactIds.length ≤ maximumMessageLinks ∧
          uniqueValidIdentifiers response.artifactIds = true) ↔
      response.text.utf8ByteSize ≤ maximumRoomWriteBodyBytes := by
  rw [h.artifactIds]
  exact and_iff_left ⟨by simp [maximumMessageLinks], rfl⟩

end Replies

/-- The identifier of an artifact is a valid one. -/
theorem artifactId_valid (env : CodexSurroundings) (bytes : Bytes) :
    validIdentifier (artifactId env bytes) = true := by
  have hpre : validIdentifier artifactIdPrefix = true := by decide
  have hpreSize : artifactIdPrefix.utf8ByteSize = 15 := rfl
  have hdigest : (env.digest bytes).val < 16 ^ 64 :=
    (env.digest bytes).isLt.trans_eq (by decide)
  have hhexSize := (graphicText_lowerHex (by decide) hdigest).utf8ByteSize_le
  refine boundedBytes_append hpre ?_ fun byte hbyte index hindex => ?_
  · show artifactIdPrefix.utf8ByteSize + _ ≤ 128
    omega
  · rw [isAsciiAlphanumeric_lowerHex hbyte]
    rfl

/-- The text of a turn of Codex that is accepted is not blank, and it fits. -/
theorem turnText_fits {turn : CompletedTurn} (h : acceptsTurn turn = true) :
    isBlank (turnText turn) = false ∧
      (turnText turn).utf8ByteSize ≤ maximumRoomWriteBodyBytes := by
  simp only [acceptsTurn, Bool.not_eq_true', Bool.or_eq_false_iff, decide_eq_false_iff_not] at h
  have hsize : turn.text.utf8ByteSize ≤ 4000 := Nat.le_of_not_lt h.2
  have hnotice : isBlank "画像を生成しました。" = false ∧
      "画像を生成しました。".utf8ByteSize ≤ maximumRoomWriteBodyBytes := by
    decide
  unfold turnText
  split
  · exact hnotice
  · rename_i hblank
    have htrim := utf8ByteSize_trim_le turn.text
    refine ⟨isBlank_trim (by simpa using hblank), ?_⟩
    show _ ≤ 4000
    omega

/-- The reply of a turn that is accepted is stored where its images are few enough and differ. -/
theorem turn_storable_iff {env : CodexSurroundings} {turn : CompletedTurn} {images : List Bytes}
    {response : TextTurnResponse} (h : acceptsTurn turn = true)
    (htext : response.text = turnText turn)
    (hartifacts : response.artifactIds = images.map (artifactId env)) :
    isBlank response.text = false ∧
      (response.text.utf8ByteSize ≤ maximumRoomWriteBodyBytes ∧
          response.artifactIds.length ≤ maximumMessageLinks ∧
            uniqueValidIdentifiers response.artifactIds = true ↔
        images.length ≤ maximumMessageLinks ∧ (images.map (artifactId env)).Nodup) := by
  obtain ⟨hblank, hsize⟩ := turnText_fits h
  have hvalid : ∀ id ∈ images.map (artifactId env), validIdentifier id = true := by
    intro id hid
    obtain ⟨bytes, -, rfl⟩ := List.mem_map.mp hid
    exact artifactId_valid env bytes
  rw [htext, hartifacts, List.length_map, uniqueValidIdentifiers_iff]
  refine ⟨hblank, ?_⟩
  constructor
  · rintro ⟨-, hlength, -, hnodup⟩
    exact ⟨hlength, hnodup⟩
  · rintro ⟨hlength, hnodup⟩
    exact ⟨hsize, hlength, hvalid, hnodup⟩

/-- The reply that an adapter accepts can be stored if, and only if, the output fits. -/
theorem reply_storable_iff (env : CodexSurroundings) (fromSlice : Bytes → Option Value)
    {snapshot : RoomSnapshot} (hs : ValidSnapshot snapshot) {sourceMessage : RoomMessage}
    (hsource : sourceMessage ∈ snapshot.messages) {clock : Clock} {createdAt : String}
    (hclock : currentRfc3339Timestamp clock = some createdAt) (output : ProviderOutput)
    {response : TextTurnResponse} (h : output.response env fromSlice = .ok response) :
    (∃ draft, replyDraft sourceMessage output.participantId createdAt response = .ok draft) ↔
      output.Fits env fromSlice := by
  have hdraft (htext : isBlank response.text = false) :=
    exists_replyDraft_iff hs hsource output.participantId_mem hclock htext
  cases output with
  | grok isReview output =>
    have hreply := Grok.response_ok h
    rw [hdraft hreply.notBlank, hreply.storable_iff]
    obtain ⟨value, original, hvalue, horiginal, htext⟩ := hreply.text
    cases isReview with
    | false => exact iff_of_true hreply.fits trivial
    -- Only a review is cut, and by characters, so its size is not bounded by the cut.
    | true =>
      rw [htext]
      constructor
      · rintro hsize value' text hvalue' htext'
        obtain rfl : value = value' := Option.some.inj (hvalue.symm.trans hvalue')
        obtain rfl : original = text := Option.some.inj (horiginal.symm.trans htext')
        exact hsize
      · intro hfits
        exact hfits value original hvalue horiginal
  | gemini output =>
    have hreply := Gemini.response_ok h
    rw [hdraft hreply.notBlank, hreply.storable_iff]
    exact iff_of_true hreply.fits trivial
  | claude output =>
    have hreply := Claude.response_ok h
    rw [hdraft hreply.notBlank, hreply.storable_iff]
    exact iff_of_true hreply.fits trivial
  | codex turn images threadId continuity =>
    unfold ProviderOutput.response at h
    dsimp only at h
    split at h
    · rename_i haccepts
      have hresponse := (Except.ok.inj h).symm
      have htext : response.text = turnText turn := by rw [hresponse, turnResponse]
      have hartifacts : response.artifactIds = images.map (artifactId env) := by
        rw [hresponse, turnResponse]
      obtain ⟨hblank, hstorable⟩ := turn_storable_iff haccepts htext hartifacts
      rw [hdraft hblank, hstorable]
      exact Iff.rfl
    · cases h

/-! ## The turns of Codex -/

section Turns

variable {env : CodexSurroundings}

/-- The reply of a turn that is run is one of an output that is accepted. -/
theorem run_response (request : AiDispatch.TextTurnRequest) :
    (run env request).Gives (fun response => ∃ turn images threadId,
      acceptsTurn turn = true ∧
        response = turnResponse env turn images threadId request.continuity) fun _ => True := by
  unfold run
  open Thread in
  refine gives_then (gives_anyway _) fun _ => gives_then (gives_anyway _) fun contexts =>
    gives_then (gives_anyway _) fun opened => ?_
  show (runThread env request contexts opened.1 opened.2).Gives _ _
  unfold runThread
  open Thread in
  refine gives_then (gives_anyway _) fun _ => gives_then (gives_anyway _) fun polls =>
    gives_then (gives_anyway _) fun turn => gives_then (gives_anyway _) fun turnId =>
      gives_then (gives_anyway _) fun polls => gives_then (gives_anyway _) fun turn => ?_
  exact Thread.gives_bind Thread.gives_require fun _ haccepted =>
    Thread.gives_then (Thread.gives_anyway _) fun images =>
      Thread.gives_pure ⟨turn, images, opened.2, haccepted, rfl⟩

end Turns

/-! ## A review that does not fit -/

namespace Sample

/-- The output of a review, with its text. -/
def reviewValue (text : String) : Value :=
  .object [("text", .string text), ("stopReason", .string "EndTurn"),
    ("sessionId", .string "session")]

/-- The output of a review by Grok. -/
def review : ProviderOutput := .grok true ⟨true, ⟨[], false⟩⟩

/-- So many characters of three bytes each. -/
def longText (length : ℕ) : String := .ofList (List.replicate length 'あ')

/-- The owner's message of the bundled rooms that is addressed to Grok. -/
def question : RoomMessage :=
  message "comparison-room" "comparison-1" ownerParticipantId ["chatgpt", "grok", "gemini"]
    "同じ質問を三人に投げて、答えを見てみたい。" "2026-08-11T19:30:00+09:00"

/-- The bundled rooms are a valid snapshot. -/
theorem validSnapshot_bundled : ValidSnapshot bundledSnapshot :=
  validateSnapshot_eq_ok.mp bundledSnapshot_valid

/-- A review takes a text of up to 4000 characters. -/
theorem longText_replyText {length : ℕ} (hpos : 0 < length) (hlength : length ≤ 4000) :
    replyText (reviewValue (longText length)) "text" 4000 = some (longText length) := by
  have hempty : (longText length).isEmpty = false := by
    rw [Bool.eq_false_iff, ne_eq, String.isEmpty_iff, longText, String.ofList_eq_empty_iff]
    simp [Nat.ne_of_gt hpos]
  have hchars : (longText length).length = length := by
    rw [longText, String.length_ofList, List.length_replicate]
  have htrim : trim (longText length) = longText length := trim_replicate (by decide) length
  have hstr : (reviewValue (longText length)).str "text" = some (longText length) := by
    simp [reviewValue, Value.str, Value.get, Value.field, Value.asStr]
  rw [replyText, hstr, Option.map_some, htrim, Option.filter_some_pos]
  simpa only [hempty, hchars, Bool.not_false, Bool.true_and, decide_eq_true_eq] using hlength

/-- The adapter returns such a text. -/
theorem review_response {length : ℕ} (hpos : 0 < length) (hlength : length ≤ 4000) :
    review.response emptySurroundings (fun _ => some (reviewValue (longText length))) =
      .ok { text := longText length, sessionId := some "session", artifactIds := [] } := by
  have htext := longText_replyText hpos hlength
  have hsession : (some "session").filter Grok.validSessionId = some "session" := by decide
  generalize longText length = text at htext ⊢
  have htype : (reviewValue text).str "type" = none := by
    simp [reviewValue, Value.str, Value.get, Value.field]
  have hstop : (reviewValue text).str "stopReason" = some "EndTurn" := by
    simp [reviewValue, Value.str, Value.get, Value.field, Value.asStr]
  have hid : (reviewValue text).str "sessionId" = some "session" := by
    simp [reviewValue, Value.str, Value.get, Value.field, Value.asStr]
  have hmaximum : Grok.maximumChars true = 4000 := rfl
  simp [ProviderOutput.response, review, Grok.response, Grok.parseResponse, hmaximum, htype, htext,
    hstop, hid, hsession]

/-- Its characters have three bytes each. -/
theorem longText_size (length : ℕ) : (longText length).utf8ByteSize = 3 * length := by
  have hsize : Char.utf8Size 'あ' = 3 := by decide
  rw [longText, utf8ByteSize_ofList, List.map_replicate, List.sum_replicate, hsize, smul_eq_mul,
    Nat.mul_comm]

/-- A short review is drafted, as it fits. -/
theorem reply_storable_chat : (∃ draft, replyDraft question "grok" "1970-01-01T00:00:00.000Z"
    { text := longText 10, sessionId := some "session", artifactIds := [] } = .ok draft) ↔
      review.Fits emptySurroundings fun _ => some (reviewValue (longText 10)) :=
  @reply_storable_iff emptySurroundings _ _ validSnapshot_bundled _ (by decide) (some (0, 0))
    _ (by decide) review _ (review_response (by decide) (by decide))

/-- A review of 1334 characters is accepted, and it is lost. -/
theorem review_lost :
    review.response emptySurroundings (fun _ => some (reviewValue (longText 1334))) =
        .ok { text := longText 1334, sessionId := some "session", artifactIds := [] } ∧
      ¬∃ draft, replyDraft question "grok" "1970-01-01T00:00:00.000Z"
        { text := longText 1334, sessionId := some "session", artifactIds := [] } = .ok draft := by
  refine ⟨review_response (by decide) (by decide), fun ⟨draft, hdraft⟩ => ?_⟩
  have hsize := longText_size 1334
  generalize longText 1334 = text at hsize hdraft
  unfold replyDraft RoomMessageDraft.tryNew RoomMessageDraft.tryNewWithProvenance at hdraft
  dsimp only at hdraft
  split at hdraft
  · rename_i hmessage
    simp only [validDraftMessage, Bool.and_eq_true, validMessageShape_iff] at hmessage
    have hbody : text.utf8ByteSize ≤ 4000 := (validText_iff.mp hmessage.1.1.body).2
    omega
  · cases hdraft

end Sample

end Mio.Desktop.TextAdapters
