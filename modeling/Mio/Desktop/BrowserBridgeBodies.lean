import Mio.Desktop.BrowserBridgeProgress
import Mio.Desktop.RoomCommands

/-!
# The body of a reply that came through the browser

`bounded_reply_body` keeps a reply that fits, and of one that does not the longest start that leaves
room for a note. The source looks for its end byte by byte (`boundaryBefore`), and what it finds is
what the model takes character by character (`boundaryBefore_eq`). A draft refuses the body of no
reply (`reply_body_storable`).
-/

namespace Mio.Desktop.BrowserBridge

open Library Std Mio.Core Time RoomPersistence

/-! ## Where a reply is cut -/

/-- A character starts at this byte, or the text ends there (`str::is_char_boundary`). -/
def isCharBoundary : List Char → ℕ → Bool
  | [], index => index == 0
  | c :: chars, index =>
    index == 0 || (c.utf8Size ≤ index && isCharBoundary chars (index - c.utf8Size))

/-- The loop of `bounded_reply_body`: the last such byte that is not past the index. -/
def boundaryBefore (chars : List Char) : ℕ → ℕ
  | 0 => 0
  | index + 1 => if isCharBoundary chars (index + 1) then index + 1 else boundaryBefore chars index

/-- The boundaries are the sizes of the starts of the text. -/
theorem isCharBoundary_iff {chars : List Char} {index : ℕ} :
    isCharBoundary chars index = true ↔
      ∃ start, start <+: chars ∧ (String.ofList start).utf8ByteSize = index := by
  simp only [utf8ByteSize_ofList]
  induction chars generalizing index with
  | nil =>
    rw [isCharBoundary, beq_iff_eq]
    constructor
    · rintro rfl
      exact ⟨[], List.nil_prefix, rfl⟩
    · rintro ⟨start, hstart, rfl⟩
      rw [List.prefix_nil.mp hstart]
      rfl
  | cons c chars ih =>
    rw [isCharBoundary, Bool.or_eq_true, Bool.and_eq_true, beq_iff_eq, decide_eq_true_eq, ih]
    constructor
    · rintro (rfl | ⟨hle, start, hstart, hsize⟩)
      · exact ⟨[], List.nil_prefix, rfl⟩
      · refine ⟨c :: start, List.cons_prefix_cons.mpr ⟨rfl, hstart⟩, ?_⟩
        rw [List.map_cons, List.sum_cons]
        omega
    · rintro ⟨start, hstart, hsize⟩
      cases start with
      | nil => exact .inl hsize.symm
      | cons first start =>
        obtain ⟨rfl, hrest⟩ := List.cons_prefix_cons.mp hstart
        rw [List.map_cons, List.sum_cons] at hsize
        exact .inr ⟨by omega, start, hrest, by omega⟩

/-- What is taken is the beginning of the text. -/
theorem takeWithin_prefix (size : ℕ) (chars : List Char) : takeWithin size chars <+: chars := by
  induction chars generalizing size with
  | nil => exact List.nil_prefix
  | cons c chars ih =>
    rw [takeWithin]
    split
    · exact List.cons_prefix_cons.mpr ⟨rfl, ih _⟩
    · exact List.nil_prefix

/-- No start that fits is longer. -/
theorem prefix_takeWithin {size : ℕ} {chars start : List Char} (hstart : start <+: chars)
    (hsize : (String.ofList start).utf8ByteSize ≤ size) : start <+: takeWithin size chars := by
  rw [utf8ByteSize_ofList] at hsize
  induction chars generalizing size start with
  | nil => rw [List.prefix_nil.mp hstart]; exact List.nil_prefix
  | cons c chars ih =>
    cases start with
    | nil => exact List.nil_prefix
    | cons first start =>
      obtain ⟨rfl, hrest⟩ := List.cons_prefix_cons.mp hstart
      rw [List.map_cons, List.sum_cons] at hsize
      rw [takeWithin, if_pos (by omega)]
      exact List.cons_prefix_cons.mpr ⟨rfl, ih hrest (by omega)⟩

/-- The beginning of a text is not larger than the text. -/
theorem utf8ByteSize_le_of_prefix {start chars : List Char} (h : start <+: chars) :
    (String.ofList start).utf8ByteSize ≤ (String.ofList chars).utf8ByteSize := by
  obtain ⟨rest, rfl⟩ := h
  rw [String.ofList_append, String.utf8ByteSize_append]
  exact Nat.le_add_right _ _

/-- The loop ends where the characters that fit do. -/
theorem boundaryBefore_eq (chars : List Char) (index : ℕ) :
    boundaryBefore chars index = (String.ofList (takeWithin index chars)).utf8ByteSize := by
  induction index with
  | zero =>
    have hsize := takeWithin_size 0 chars
    rw [boundaryBefore]
    omega
  | succ index ih =>
    have hsize := takeWithin_size (index + 1) chars
    have htaken := takeWithin_prefix (index + 1) chars
    rw [boundaryBefore]
    split
    · -- A start of this size is one that fits, so it is all that is taken.
      rename_i hboundary
      obtain ⟨start, hstart, hfound⟩ := isCharBoundary_iff.mp hboundary
      have hle := utf8ByteSize_le_of_prefix (prefix_takeWithin hstart hfound.le)
      omega
    · rename_i hboundary
      have hne : (String.ofList (takeWithin (index + 1) chars)).utf8ByteSize ≠ index + 1 :=
        fun heq => hboundary (isCharBoundary_iff.mpr ⟨_, htaken, heq⟩)
      have hle := utf8ByteSize_le_of_prefix (prefix_takeWithin htaken (by omega : _ ≤ index))
      have hsame := takeWithin_size index chars
      have hshorter := takeWithin_prefix index chars
      have hge := utf8ByteSize_le_of_prefix (prefix_takeWithin hshorter (by omega : _ ≤ index + 1))
      rw [ih]
      omega

/-! ## What a draft makes of the body -/

/-- A draft looks at the body only for its size, and for whether it is blank. -/
theorem tryNewWithProvenance_body {id roomId authorId : String} {recipients : List String}
    {body other createdAt : String} {artifactIds : List String}
    {provenance : Option RoomMessageProvenance} {draft : RoomMessageDraft}
    (hother : RoomMessageDraft.tryNewWithProvenance id roomId authorId recipients other createdAt
      artifactIds provenance = .ok draft)
    (hblank : isBlank body = false) (hsize : validText body maximumRoomWriteBodyBytes = true) :
    ∃ made, RoomMessageDraft.tryNewWithProvenance id roomId authorId recipients body createdAt
      artifactIds provenance = .ok made ∧ made.message.body = body := by
  have hvalid := draft.valid
  rw [RoomCommands.message_of_draft hother] at hvalid
  have hdraft : validDraftMessage
      { id, roomId, authorId, recipients, body, createdAt, artifactIds, provenance } = true := by
    simp only [validDraftMessage, validMessageShape, Bool.and_eq_true] at hvalid ⊢
    obtain ⟨⟨⟨⟨⟨⟨hids, -⟩, hcreatedAt⟩, hlinks⟩, hartifacts⟩, -⟩, hrecipients⟩ := hvalid
    exact ⟨⟨⟨⟨⟨⟨hids, hsize⟩, hcreatedAt⟩, hlinks⟩, hartifacts⟩, by simp [hblank]⟩, hrecipients⟩
  refine ⟨⟨_, hdraft⟩, ?_, rfl⟩
  simp [RoomMessageDraft.tryNewWithProvenance, hdraft]

/-- A reply that is not blank has a body that fits. It is the trimmed reply, or its longest start
with room for the note, and the note. No draft that would take another body refuses it, so that a
reply to a dispatch that has its message is always drafted. -/
theorem reply_body_storable (input : String) (hinput : isBlank input = false) :
    ∃ body truncated, boundedReplyBody input = .ok (body, truncated) ∧ isBlank body = false ∧
      body.utf8ByteSize ≤ maximumRoomWriteBodyBytes ∧
      ((trim input).utf8ByteSize ≤ maximumRoomWriteBodyBytes → body = trim input ∧
        truncated = false) ∧
      (maximumRoomWriteBodyBytes < (trim input).utf8ByteSize → truncated = true ∧
        ∃ start, body = String.ofList start ++ replySuffix ∧ start <+: (trim input).toList ∧
          (∀ longer, longer <+: (trim input).toList →
            (String.ofList longer ++ replySuffix).utf8ByteSize ≤ maximumRoomWriteBodyBytes →
              longer <+: start) ∧
          (String.ofList start).utf8ByteSize =
            boundaryBefore (trim input).toList
              (min (maximumReplyBodyBytes - replySuffix.utf8ByteSize)
                (trim input).utf8ByteSize)) ∧
      (∀ id roomId authorId recipients other createdAt artifactIds provenance,
        (∃ draft,
          RoomMessageDraft.tryNewWithProvenance id roomId authorId recipients other createdAt
          artifactIds provenance = .ok draft) →
        ∃ draft, RoomMessageDraft.tryNewWithProvenance id roomId authorId recipients body createdAt
          artifactIds provenance = .ok draft ∧ draft.message.body = body) ∧
      ∀ hashes memory dispatch room message clock, ValidSnapshot memory →
        Sourced memory dispatch room message → (currentRfc3339Timestamp clock).isSome = true →
        ∃ draft, replyDraft hashes memory clock dispatch body = .ok draft := by
  obtain ⟨body, truncated, hbounded, hblank, hvalid⟩ := boundedReplyBody_eq_ok hinput
  have hmaximum : maximumReplyBodyBytes = maximumRoomWriteBodyBytes := rfl
  have hsuffix : replySuffix.utf8ByteSize ≤ maximumReplyBodyBytes := by decide
  have hne : (trim input).isEmpty = false := hinput
  refine ⟨body, truncated, hbounded, hblank, (validText_iff.mp hvalid).2, ?_, ?_, ?_,
    fun hashes memory dispatch room message clock hs hsourced hclock =>
      exists_replyDraft hs hsourced hblank hvalid hclock⟩
  -- A text that fits is used as it is.
  · intro hfits
    simp only [boundedReplyBody, hne, Bool.false_eq_true, if_false,
      hmaximum, if_pos hfits] at hbounded
    obtain ⟨rfl, rfl⟩ := Prod.mk.inj (Except.ok.inj hbounded)
    exact ⟨rfl, rfl⟩
  · intro hlong
    have hover : ¬(trim input).utf8ByteSize ≤ maximumReplyBodyBytes := by omega
    simp only [boundedReplyBody, hne, Bool.false_eq_true, if_false, if_neg hover] at hbounded
    obtain ⟨rfl, rfl⟩ := Prod.mk.inj (Except.ok.inj hbounded)
    -- A text over the limit has more bytes than the limit less the suffix.
    have hmin : min (maximumReplyBodyBytes - replySuffix.utf8ByteSize) (trim input).utf8ByteSize =
        maximumReplyBodyBytes - replySuffix.utf8ByteSize := by omega
    refine ⟨rfl, _, rfl, takeWithin_prefix _ _, fun longer hlonger hfits => ?_, ?_⟩
    · rw [String.utf8ByteSize_append] at hfits
      exact prefix_takeWithin hlonger (by omega)
    · rw [hmin, boundaryBefore_eq]
  · rintro id roomId authorId recipients other createdAt artifactIds provenance ⟨draft, hdraft⟩
    exact tryNewWithProvenance_body hdraft hblank hvalid

/-- Of a text of one character, as many are taken as fit. -/
theorem takeWithin_replicate (c : Char) (size n : ℕ) :
    takeWithin size (List.replicate n c) = List.replicate (min n (size / c.utf8Size)) c := by
  have hpos : 0 < c.utf8Size := c.utf8Size_pos
  induction n generalizing size with
  | zero =>
    rw [Nat.zero_min]
    rfl
  | succ n ih =>
    rw [List.replicate_succ, takeWithin]
    split
    · rename_i hfits
      rw [ih, ← List.replicate_succ, Nat.div_eq_sub_div hpos hfits, Nat.add_min_add_right]
    · rename_i hlarge
      rw [Nat.div_eq_of_lt (Nat.lt_of_not_le hlarge), Nat.min_zero]
      rfl

/-- A reply of characters of three bytes each. -/
def wideReply (length : ℕ) : String := .ofList (List.replicate length 'あ')

/-- The long reply has nothing to trim. -/
theorem trim_wideReply (length : ℕ) : trim (wideReply length) = wideReply length :=
  trim_replicate (by decide) length

/-- Each character of the long reply takes three bytes. -/
theorem utf8ByteSize_wideReply (length : ℕ) : (wideReply length).utf8ByteSize = length * 3 := by
  rw [wideReply, utf8ByteSize_ofList, List.map_replicate, List.sum_replicate]
  rfl

/-- The room for the note begins within the 1310th of 1334 characters, which is left out. -/
theorem reply_body_storable_cut :
    isBlank (wideReply 1334) = false ∧
      ∃ body, boundedReplyBody (wideReply 1334) = .ok (body, true) ∧
        body = wideReply 1309 ++ replySuffix ∧ body.utf8ByteSize = 3998 ∧ isBlank body = false := by
  have hsize : (wideReply 1334).utf8ByteSize = 4002 := utf8ByteSize_wideReply 1334
  have hempty : (wideReply 1334).isEmpty = false := by
    rw [String.isEmpty_eq_false_iff]
    intro hempty
    rw [hempty] at hsize
    cases hsize
  have hinput : isBlank (wideReply 1334) = false := by rw [isBlank, trim_wideReply, hempty]
  obtain ⟨body, truncated, hbounded, hblank, -, -, hlong, -⟩ :=
    reply_body_storable (wideReply 1334) hinput
  rw [trim_wideReply, hsize] at hlong
  obtain ⟨rfl, -⟩ := hlong (by decide)
  have hbody : body = wideReply 1309 ++ replySuffix := by
    have hcut : ¬(wideReply 1334).utf8ByteSize ≤ maximumReplyBodyBytes := by
      rw [hsize]
      decide
    -- Each character has three bytes, so the cut is at a multiple of three below the limit.
    have hcount :
      min 1334 ((maximumReplyBodyBytes - replySuffix.utf8ByteSize) / 'あ'.utf8Size) = 1309 := by
      decide
    have htaken : takeWithin (maximumReplyBodyBytes - replySuffix.utf8ByteSize)
        (wideReply 1334).toList = List.replicate 1309 'あ' := by
      rw [wideReply, String.toList_ofList, takeWithin_replicate, hcount]
    simp only [boundedReplyBody, trim_wideReply, hempty, Bool.false_eq_true, if_false, if_neg hcut,
      htaken] at hbounded
    exact (Prod.mk.inj (Except.ok.inj hbounded)).1.symm
  refine ⟨hinput, body, hbounded, hbody, ?_, hblank⟩
  rw [hbody, String.utf8ByteSize_append, utf8ByteSize_wideReply]
  decide

end Mio.Desktop.BrowserBridge
