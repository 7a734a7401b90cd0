import Mio.Desktop.AiDispatchRuns

/-!
# External turns are started once

An external turn is started once as long as the ledger remembers its dispatch (`dispatch_laws`). It
forgets one when it is full and a new dispatch is begun: then the oldest record whose turn is over
is pruned, and the dispatch can be begun and started again (`started_twice`).
-/

namespace Mio.Desktop.AiDispatchLedger

open Library Std

section Laws

variable {serde : Serde PersistedDispatchLedger} {state : State} {event : Event}

variable (serde) in
/-- The event starts the external turn of the dispatch. -/
def Starts (dispatchId : String) (state : State) (event : Event) : Prop :=
  ∃ updatedAt faults ledger, event = .call (.markExternalStarted dispatchId updatedAt) faults ∧
    state.running = true ∧
    markExternalStarted serde faults dispatchId updatedAt state.ledger = (.done (), ledger)

/-- The ledger remembers that the external turn of the dispatch was started. -/
def Remembers (dispatchId : String) (state : State) : Prop :=
  ∃ record, state.record dispatchId = some record ∧ record.state ≠ .prepared

/-- A turn that is started was prepared, and then the ledger remembers it. -/
theorem Starts.record {dispatchId : String} (h : Starts serde dispatchId state event) :
    (∃ record, state.record dispatchId = some record ∧ record.state = .prepared) ∧
      Remembers dispatchId (apply serde state event) := by
  obtain ⟨updatedAt, faults, ledger, rfl, hrunning, hdone⟩ := h
  have hrun : (LedgerCall.markExternalStarted dispatchId updatedAt).run serde faults state.ledger =
      (.done none, ledger) := by
    rw [LedgerCall.run, hdone]
    rfl
  have hends :=
    @LedgerCall.ends serde faults state.ledger (.markExternalStarted dispatchId updatedAt)
  unfold Remembers State.record
  rw [apply_call_ledger _ faults hrunning]
  rw [hrun] at hends ⊢
  generalize hended : ((.done none, ledger) :
    Outcome AiDispatchLedgerError (Option AiDispatchBegin) × DesktopAiDispatchLedger) =
      ended at hends
  -- A mark that succeeds has persisted, so its move is the only case that is left.
  cases hends with
  | answers outcome data h =>
    cases h
    cases hended
  | persists kept next answer hstep =>
    cases hstep with
    | move _ id time current turn finish hmark htime hactive hcurrent =>
      simp only [LedgerCall.mark, Option.some.injEq, Prod.mk.injEq] at hmark
      obtain ⟨rfl, hprepared, rfl, rfl, rfl⟩ := hmark
      refine ⟨⟨current, hcurrent, hprepared.symm⟩, ?_⟩
      -- Of the persist's ends only the first is a success.
      rcases hpersist : ((dispatchLedgerPersistence serde).persist
        (state.ledger.data.records.insert dispatchId
          { current with state := .externalStarted, updatedAt })).run faults state.ledger.world with
        ⟨_ | _ | _, world⟩
      · dsimp only at hended
        rw [hpersist] at hended
        cases hended
        exact ⟨_, ExtTreeMap.getElem?_insert_self, by simp⟩
      · dsimp only at hended
        rw [hpersist] at hended
        cases hended
      · dsimp only at hended
        rw [hpersist] at hended
        cases hended

/-- What the ledger remembers it forgets only when it prunes it. -/
theorem Remembers.apply {dispatchId : String} (h : Remembers dispatchId state)
    (hserde : serde.RoundTrips) (hsound : Sound state.ledger.data) (hholds : Holds serde state)
    (hkept : ¬Prunes serde dispatchId state event) :
    Remembers dispatchId (apply serde state event) := by
  obtain ⟨record, hrecord, hstarted⟩ := h
  have hstays := (apply_record hserde hsound hholds event hrecord).resolve_right hkept
  generalize hafter : (AiDispatchLedger.apply serde state event).record dispatchId = after at hstays
  cases hstays with
  | same => exact ⟨record, hafter, hstarted⟩
  | moved turn updatedAt hne => exact ⟨_, hafter, hne⟩

variable (serde) in
/-- What the ledger answers about a dispatch whose turn it remembers. -/
structure Answered (dispatchId : String) (state : State) : Prop where
  /-- The external turn is not started. -/
  not_started : ∀ event, ¬Starts serde dispatchId state event
  /-- A begin is answered by what there is. It is refused only where it is not valid, or has another
  room or reply. -/
  begins : ∃ existing, state.record dispatchId = some existing ∧ existing.state ≠ .prepared ∧
    ∀ (record : AiDispatchRecord) faults, record.dispatchId = dispatchId →
      ∃ outcome, begin serde faults record state.ledger = (outcome, state.ledger) ∧
        (outcome = .done .active ∨ outcome = .done (.existing existing) ∨
          outcome = .error .invalid ∧
            ¬(validateRecord record = .ok () ∧ sameDispatch existing record = true))

/-- A dispatch that is remembered has been answered. -/
theorem Remembers.answered {dispatchId : String} (h : Remembers dispatchId state) :
    Answered serde dispatchId state := by
  obtain ⟨existing, hexisting, hstarted⟩ := h
  refine ⟨fun event hstarts => ?_, existing, hexisting, hstarted, fun record faults hid => ?_⟩
  -- A start needs a prepared record, and this one was started.
  · obtain ⟨⟨record, hrecord, hprepared⟩, -⟩ := hstarts.record
    rw [hexisting, Option.some.injEq] at hrecord
    exact hstarted (hrecord ▸ hprepared)
  · subst hid
    unfold begin
    have hinvalid : ∀ e, validateRecord record = .error e → e = .invalid := by
      intro e he
      unfold validateRecord at he
      split at he
      · exact (Except.error.inj he).symm
      · cases he
    -- Of the guards of `begin`, each answers without a start.
    rcases hvalid : validateRecord record with e | _
    · obtain rfl := hinvalid e hvalid
      exact ⟨_, rfl, .inr (.inr ⟨rfl, by simp⟩)⟩
    dsimp only
    by_cases hactive : state.ledger.data.active.contains record.dispatchId = true
    · rw [if_pos hactive]
      exact ⟨_, rfl, .inl rfl⟩
    rw [if_neg hactive]
    have hrecords : state.ledger.data.records[record.dispatchId]? = some existing := hexisting
    rw [hrecords]
    dsimp only
    have hsame : sameDispatch existing { record with state := .prepared } =
      sameDispatch existing record := rfl
    rw [hsame]
    -- The record is the same dispatch, so it is the answer, or it is refused as another one.
    by_cases hdiffers : (!sameDispatch existing record) = true
    · rw [if_pos hdiffers]
      refine ⟨_, rfl, .inr (.inr ⟨rfl, fun h => ?_⟩)⟩
      simp [h.2] at hdiffers
    · rw [if_neg hdiffers]
      exact ⟨_, rfl, .inr (.inl rfl)⟩

/-- A run goes on from where its first part has ended. -/
theorem run_append (first second : List Event) :
    run serde (first ++ second) state = run serde second (run serde first state) :=
  List.foldl_append

/-- A run of no events stays where it is. -/
theorem run_nil : run serde [] state = state := rfl

/-- A run begins with its first event. -/
theorem run_cons (event : Event) (events : List Event) :
    run serde (event :: events) state = run serde events (apply serde state event) := rfl

/-- In a run that never loses the file, it holds the records. -/
theorem run_holds (hserde : serde.RoundTrips) (hsound : Sound state.ledger.data)
    (hholds : Holds serde state) (events : List Event)
    (hkeeps : ∀ before event rest, events = before ++ event :: rest →
      ¬Loses serde (run serde before state) event) : Holds serde (run serde events state) := by
  induction events generalizing state with
  | nil => exact hholds
  | cons event events ih =>
    have hfirst := hkeeps [] event events rfl
    refine ih (apply_sound hsound) (apply_holds hserde hsound hholds hfirst) ?_
    intro before other rest heq
    exact hkeeps (event :: before) other rest (by rw [heq]; rfl)

/-- The laws hold before the first start. -/
theorem holds_first (serde : Serde PersistedDispatchLedger) {world : World}
    (hp : world.dir .primary = none) (hb : world.dir .backup = none) :
    Holds serde (.first world) := by
  have hcurrent : world.dir.current = none := (Directory.current_of_no_primary hp).trans hb
  refine ⟨none, ⟨⟨.inl hp, .inl hb⟩, hcurrent⟩, fun dispatchId record hrecord => ?_⟩
  simp [State.first, State.record] at hrecord

/-- What the ledger remembers it still does after events that do not prune it. -/
theorem Remembers.run {dispatchId : String} (h : Remembers dispatchId state)
    (hserde : serde.RoundTrips) (hsound : Sound state.ledger.data) (hholds : Holds serde state)
    (events : List Event)
    (hkeeps : ∀ before event rest, events = before ++ event :: rest →
      ¬Loses serde (AiDispatchLedger.run serde before state) event)
    (hkept : ∀ before event rest, events = before ++ event :: rest →
      ¬Prunes serde dispatchId (AiDispatchLedger.run serde before state) event) :
    Remembers dispatchId (AiDispatchLedger.run serde events state) := by
  induction events generalizing state with
  | nil => exact h
  | cons event events ih =>
    have hfirst := hkeeps [] event events rfl
    refine ih (h.apply hserde hsound hholds (hkept [] event events rfl)) (apply_sound hsound)
      (apply_holds hserde hsound hholds hfirst) ?_ ?_
    · intro before other rest heq
      exact hkeeps (event :: before) other rest (by rw [heq]; rfl)
    · intro before other rest heq
      exact hkept (event :: before) other rest (by rw [heq]; rfl)

end Laws

/-- In every run that begins without any file and does not lose it: once the external turn of a
dispatch is started, and until its record is pruned, the turn is not started again, and a begin of
the dispatch reserves nothing. A record that goes is pruned, by a begin at a full ledger, when its
turn is over. -/
theorem dispatch_laws {serde : Serde PersistedDispatchLedger} (hserde : serde.RoundTrips)
    {world : World} (hp : world.dir .primary = none) (hb : world.dir .backup = none)
    (events : List Event)
    (hkeeps : ∀ before event rest, events = before ++ event :: rest →
      ¬Loses serde (run serde before (.first world)) event) :
    (∀ first start between, first ++ start :: between <+: events → ∀ dispatchId,
      Starts serde dispatchId (run serde first (.first world)) start →
      (∀ before event rest, between = before ++ event :: rest →
        ¬Prunes serde dispatchId (run serde (first ++ start :: before) (.first world)) event) →
      Answered serde dispatchId (run serde (first ++ start :: between) (.first world))) ∧
    ∀ before event, before ++ [event] <+: events → ∀ dispatchId,
      (run serde before (.first world)).record dispatchId ≠ none →
      (apply serde (run serde before (.first world)) event).record dispatchId = none →
      Prunes serde dispatchId (run serde before (.first world)) event := by
  -- What holds after the first events of the run.
  have hholds : ∀ before, before <+: events →
      Holds serde (run serde before (.first world)) := by
    rintro before ⟨rest, rfl⟩
    refine run_holds hserde (sound_first world) (holds_first serde hp hb) before ?_
    intro first event later heq
    exact hkeeps first event (later ++ rest) (by rw [heq]; simp)
  have hsound := fun before => @run_sound serde _ before (sound_first world)
  refine ⟨fun first start between hbetween dispatchId hstarts hkept => ?_,
    fun before event hbefore dispatchId hsome hnone => ?_⟩
  · obtain ⟨rest, rfl⟩ := hbetween
    have hstart : first ++ [start] <+: (first ++ start :: between) ++ rest :=
      ⟨between ++ rest, by simp⟩
    have hafter : apply serde (run serde first (.first world)) start =
        run serde (first ++ [start]) (.first world) := by
      rw [run_append]
      rfl
    have hsplit : ∀ before, first ++ start :: before = (first ++ [start]) ++ before := by simp
    have hremembers := hstarts.record.2
    rw [hafter] at hremembers
    refine Remembers.answered ?_
    rw [hsplit, run_append]
    refine hremembers.run hserde (hsound _) (hholds _ hstart) between ?_ ?_
    · intro before event later heq
      rw [← run_append, ← hsplit]
      exact hkeeps _ event (later ++ rest) (by rw [heq]; simp)
    · intro before event later heq
      rw [← run_append, ← hsplit]
      exact hkept before event later heq
  · obtain ⟨record, hrecord⟩ := Option.ne_none_iff_exists'.mp hsome
    have hearlier := (List.prefix_append before [event]).trans hbefore
    have hchange := apply_record hserde (hsound before) (hholds before hearlier) event hrecord
    refine hchange.resolve_left fun hstays => ?_
    rw [hnone] at hstays
    cases hstays

/-! ## A ledger that is full -/

namespace Sample

open Json

/-- The name of a state in the file. -/
def stateText : AiDispatchState → String
  | .prepared => "prepared"
  | .externalStarted => "externalStarted"
  | .completed => "completed"
  | .failed => "failed"

/-- The text of a record in the file. -/
def recordText (record : PersistedDispatchRecord) : String :=
  object [("dispatchId", string record.dispatchId), ("roomId", string record.roomId),
    ("sourceMessageId", string record.sourceMessageId),
    ("recipientId", string record.recipientId),
    ("replyMessageId", string record.replyMessageId),
    ("state", string (stateText record.state)), ("updatedAt", string record.updatedAt)]

/-- The text of the file. -/
def text (persisted : PersistedDispatchLedger) : String :=
  object [("fileVersion", "1"), ("records", array (persisted.records.map recordText))]

/-- No text of the record needs an escape. -/
structure Plain (record : PersistedDispatchRecord) : Prop where
  dispatchId : '"' ∉ record.dispatchId.toList
  roomId : '"' ∉ record.roomId.toList
  sourceMessageId : '"' ∉ record.sourceMessageId.toList
  recipientId : '"' ∉ record.recipientId.toList
  replyMessageId : '"' ∉ record.replyMessageId.toList
  updatedAt : '"' ∉ record.updatedAt.toList

open Classical in
/-- The serializer of the ledgers whose texts need no escapes. -/
noncomputable def serde : Serde PersistedDispatchLedger := .ofEncoding fun persisted =>
  if persisted.fileVersion = dispatchLedgerFileVersion ∧ ∀ record ∈ persisted.records, Plain record
  then some (asBytes (text persisted)) else none

/-- A record and what follows it can be told from the text. -/
theorem recordText_inj {a b : PersistedDispatchRecord} (ha : Plain a) (hb : Plain b)
    {x y : List Char} (h : (recordText a).toList ++ x = (recordText b).toList ++ y) :
    a = b ∧ x = y := by
  have hstate : ∀ state, '"' ∉ (stateText state).toList := by
    intro state
    cases state <;> decide
  have hstates : ∀ state state', (stateText state).toList = (stateText state').toList →
      state = state' := by
    intro state state'
    cases state <;> cases state' <;> decide
  -- The texts are taken apart field by field: each value ends at its quote.
  simp only [recordText, object, string, List.map_cons, List.map_nil,
    String.intercalate_cons_cons, String.intercalate_singleton, String.toList_append,
    List.append_assoc, List.append_cancel_left_eq] at h
  obtain ⟨hdispatch, h⟩ := append_quote_inj ha.dispatchId hb.dispatchId h
  simp only [List.append_cancel_left_eq] at h
  obtain ⟨hroom, h⟩ := append_quote_inj ha.roomId hb.roomId h
  simp only [List.append_cancel_left_eq] at h
  obtain ⟨hsource, h⟩ := append_quote_inj ha.sourceMessageId hb.sourceMessageId h
  simp only [List.append_cancel_left_eq] at h
  obtain ⟨hrecipient, h⟩ := append_quote_inj ha.recipientId hb.recipientId h
  simp only [List.append_cancel_left_eq] at h
  obtain ⟨hreply, h⟩ := append_quote_inj ha.replyMessageId hb.replyMessageId h
  simp only [List.append_cancel_left_eq] at h
  obtain ⟨hstateText, h⟩ := append_quote_inj (hstate a.state) (hstate b.state) h
  simp only [List.append_cancel_left_eq] at h
  obtain ⟨hupdated, h⟩ := append_quote_inj ha.updatedAt hb.updatedAt h
  simp only [List.append_cancel_left_eq] at h
  simp only [String.toList_inj] at hdispatch hroom hsource hrecipient hreply hupdated
  refine ⟨?_, h⟩
  cases a
  cases b
  rw [PersistedDispatchRecord.mk.injEq]
  exact ⟨hdispatch, hroom, hsource, hrecipient, hreply, hstates _ _ hstateText, hupdated⟩

/-- So can a list of records. -/
theorem recordsText_inj {as bs : List PersistedDispatchRecord} (ha : ∀ a ∈ as, Plain a)
    (hb : ∀ b ∈ bs, Plain b) {x : List Char}
    (h : (",".intercalate (as.map recordText)).toList ++ ']' :: x =
      (",".intercalate (bs.map recordText)).toList ++ ']' :: x) : as = bs := by
  -- A record starts with a brace, which neither a comma nor the closing bracket is.
  have hbrace : ∀ record y, ∃ z, (recordText record).toList ++ y = '\x7b' :: z := by
    intro record y
    unfold recordText object
    rw [String.toList_append, String.toList_append, List.append_assoc, List.append_assoc]
    exact ⟨_, rfl⟩
  have hcomma : ",".toList = [','] := rfl
  have hsplit : ∀ record (records : List PersistedDispatchRecord), records ≠ [] →
      (",".intercalate ((record :: records).map recordText)).toList =
        (recordText record).toList ++ ',' :: (",".intercalate (records.map recordText)).toList := by
    intro record records hne
    rw [List.map_cons, String.intercalate_cons_of_ne_nil (by simpa using hne),
      String.toList_append, String.toList_append, hcomma, List.append_assoc]
    rfl
  -- By induction on the records: each ends where its text ends, so the rest of the two texts
  -- agrees.
  induction as generalizing bs with
  | nil =>
    cases bs with
    | nil => rfl
    | cons b bs =>
      exfalso
      by_cases hbs : bs = []
      · subst hbs
        obtain ⟨z, hz⟩ := hbrace b (']' :: x)
        simp [hz] at h
      · obtain ⟨z, hz⟩ :=
          hbrace b (',' :: ((",".intercalate (bs.map recordText)).toList ++ ']' :: x))
        rw [hsplit b bs hbs, List.append_assoc, List.cons_append, hz] at h
        simp at h
  | cons a as ih =>
    have haHead := ha a List.mem_cons_self
    cases bs with
    | nil =>
      exfalso
      by_cases has : as = []
      · subst has
        obtain ⟨z, hz⟩ := hbrace a (']' :: x)
        simp [hz] at h
      · obtain ⟨z, hz⟩ :=
          hbrace a (',' :: ((",".intercalate (as.map recordText)).toList ++ ']' :: x))
        rw [hsplit a as has, List.append_assoc, List.cons_append, hz] at h
        simp at h
    | cons b bs =>
      have hbHead := hb b List.mem_cons_self
      -- A single record is followed by the bracket and any other by a comma.
      by_cases has : as = [] <;> by_cases hbs : bs = []
      · subst has hbs
        have h' : (recordText a).toList ++ ']' :: x = (recordText b).toList ++ ']' :: x := by
          simpa using h
        obtain ⟨rfl, -⟩ := recordText_inj haHead hbHead h'
        rfl
      · subst has
        rw [hsplit b bs hbs, List.append_assoc, List.map_singleton,
          String.intercalate_singleton] at h
        have hrest := (recordText_inj haHead hbHead h).2
        simp at hrest
      · subst hbs
        rw [hsplit a as has, List.append_assoc, List.map_singleton,
          String.intercalate_singleton] at h
        have hrest := (recordText_inj haHead hbHead h).2
        simp at hrest
      · rw [hsplit a as has, hsplit b bs hbs, List.append_assoc, List.append_assoc,
          List.cons_append, List.cons_append] at h
        obtain ⟨rfl, hrest⟩ := recordText_inj haHead hbHead h
        rw [List.cons.injEq] at hrest
        rw [ih (fun other hother => ha other (List.mem_cons_of_mem _ hother))
          (fun other hother => hb other (List.mem_cons_of_mem _ hother)) hrest.2]

/-- The sample file is read as what was written. -/
theorem serde_roundTrips : serde.RoundTrips := by
  refine Serde.ofEncoding_roundTrips (fun persisted h => ?_) fun a b body ha hb => ?_
  · split_ifs at h with hplain
    have hlength := congrArg List.length (Option.some.inj h)
    rw [length_asBytes, List.length_nil] at hlength
    simp [text, object] at hlength
  · split_ifs at ha hb with haplain hbplain
    have hbytes : asBytes (text a) = asBytes (text b) :=
      (Option.some.inj ha).trans (Option.some.inj hb).symm
    have htext := String.toList_inj.mpr (asBytes_inj hbytes)
    simp only [text, object, array, List.map_cons, List.map_nil, String.intercalate_cons_cons,
      String.intercalate_singleton, String.toList_append, List.append_assoc,
      List.append_cancel_left_eq] at htext
    have hrecords := recordsText_inj haplain.2 hbplain.2 htext
    cases a
    cases b
    rw [PersistedDispatchLedger.mk.injEq]
    exact ⟨haplain.1.trans hbplain.1.symm, hrecords⟩

/-! ### Dispatches -/

/-- The time of every sample record. -/
def time : String := "2026-08-13T00:00:00Z"

/-- The dispatch of a message with a number. -/
def dispatch (n : ℕ) : AiDispatchRecord where
  dispatchId := "room-message:m" ++ toString n ++ ":codex"
  roomId := "room-1"
  sourceMessageId := "m" ++ toString n
  recipientId := "codex"
  replyMessageId := "ai-reply-m" ++ toString n
  state := .prepared
  updatedAt := time

/-- The identifier of one of many dispatches. -/
def identifier (n : ℕ) : String := (dispatch n).dispatchId

/-- Distinct numbers give distinct dispatches. -/
theorem identifier_inj {i j : ℕ} (h : identifier i = identifier j) : i = j := by
  unfold identifier dispatch at h
  have hinner : "room-message:m" ++ toString i = "room-message:m" ++ toString j :=
    (String.append_left_inj _).mp h
  exact Nat.repr_injective ((String.append_right_inj _).mp hinner)

/-- A number below a thousand has at most three digits. -/
theorem size_number {n : ℕ} (hn : n < 1000) : (toString n).utf8ByteSize ≤ 3 := by
  have hgraphic : GraphicText 3 (toString n) := graphicText_toString (by decide) hn
  have hne : toString n ≠ "" := by
    intro hempty
    have hlength := congrArg String.length hempty
    simp at hlength
  exact (boundedBytes_iff.mp (hgraphic.boundedBytes hne)).2.1

/-- A name with a number is one of the grammar's, as long as digits are allowed in it. -/
theorem boundedBytes_number {maximum n : ℕ} {allowed : ℕ → UInt8 → Bool} {name : String}
    (hn : n < 1000) (hname : boundedBytes maximum allowed name = true)
    (hsize : name.utf8ByteSize + 3 ≤ maximum)
    (hdigit : ∀ byte, isAsciiDigit byte = true → ∀ index, allowed index byte = true) :
    boundedBytes maximum allowed (name ++ toString n) = true := by
  have hnumber := size_number hn
  refine boundedBytes_append hname (by omega) fun byte hbyte index _ => ?_
  exact hdigit byte (isAsciiDigit_toString hbyte) index

/-- The dispatches pass the check of the ledger. -/
theorem dispatch_valid {n : ℕ} (hn : n < 1000) : validateRecord (dispatch n) = .ok () := by
  -- The parts of the id are in the grammar, and so are the other ids.
  have hdispatch : validDispatchId (dispatch n).dispatchId = true := by
    have hname : validDispatchId ("room-message:m" ++ toString n) = true :=
      boundedBytes_number hn (by decide) (by decide) fun byte h index => by
        simp [isAsciiAlphanumeric, h]
    have hnumber := size_number hn
    have hroom : "room-message:m".utf8ByteSize = 14 := rfl
    have hcodex : ":codex".utf8ByteSize = 6 := rfl
    refine boundedBytes_append hname ?_ fun byte hbyte index _ => ?_
    · rw [String.utf8ByteSize_append]
      omega
    · have hall : ∀ byte ∈ asBytes ":codex",
          (isAsciiAlphanumeric byte || byte == 0x2d || byte == 0x5f || byte == 0x3a) = true := by
        decide +kernel
      exact hall byte hbyte
  have hsource : validEntityId (dispatch n).sourceMessageId = true :=
    boundedBytes_number hn (by decide) (by decide) fun byte h index => by
      simp [isAsciiAlphanumeric, h]
  have hreply : validEntityId (dispatch n).replyMessageId = true :=
    boundedBytes_number hn (by decide) (by decide) fun byte h index => by
      simp [isAsciiAlphanumeric, h]
  have hroom : validEntityId "room-1" = true := by decide
  have hrecipient : validEntityId "codex" = true := by decide
  have htime : validTimestamp time = true := by decide
  have hid : (dispatch n).dispatchId =
      s!"room-message:{(dispatch n).sourceMessageId}:{(dispatch n).recipientId}" := by
    have hstring : ∀ s : String, toString s = s := fun _ => rfl
    refine String.toList_inj.mp ?_
    simp [dispatch, hstring]
  unfold validateRecord
  rw [hdispatch, hsource, hreply, ← hid]
  simp [dispatch, hroom, hrecipient, htime]

/-- Every record is of a dispatch with a number, in some state. -/
def Sampled (records : Records) : Prop :=
  AllEntries (fun id record => ∃ n < 1000, ∃ state, id = identifier n ∧
    record = { dispatch n with state }) records

/-- Their texts need no escapes. -/
theorem plain_dispatch {n : ℕ} (state : AiDispatchState) :
    Plain (toPersistedRecord { dispatch n with state }) := by
  have hnumber : '"' ∉ Nat.toDigits 10 n := by
    intro hmem
    rw [← Nat.toList_repr] at hmem
    have hdigit := digits_toString hmem
    revert hdigit
    decide
  constructor <;> simp [toPersistedRecord, dispatch, time, hnumber]

/-- A record of them is short. -/
theorem size_recordText {n : ℕ} (hn : n < 1000) (state : AiDispatchState) :
    (recordText (toPersistedRecord { dispatch n with state })).utf8ByteSize ≤ 400 := by
  have hnumber := size_number hn
  have hstate : (stateText state).utf8ByteSize ≤ 15 := by
    cases state <;> decide
  have hsize := utf8ByteSize_object_le [("dispatchId", string (dispatch n).dispatchId),
    ("roomId", string (dispatch n).roomId),
      ("sourceMessageId", string (dispatch n).sourceMessageId),
    ("recipientId", string (dispatch n).recipientId),
    ("replyMessageId", string (dispatch n).replyMessageId),
    ("state", string (stateText state)), ("updatedAt", string (dispatch n).updatedAt)]
  have hnames : "dispatchId".utf8ByteSize = 10 ∧ "roomId".utf8ByteSize = 6 ∧
      "sourceMessageId".utf8ByteSize = 15 ∧ "recipientId".utf8ByteSize = 11 ∧
      "replyMessageId".utf8ByteSize = 14 ∧ "state".utf8ByteSize = 5 ∧
      "updatedAt".utf8ByteSize = 9 := by
    decide
  have htexts : "room-message:m".utf8ByteSize = 14 ∧ ":codex".utf8ByteSize = 6 ∧
      "room-1".utf8ByteSize = 6 ∧ "m".utf8ByteSize = 1 ∧ "codex".utf8ByteSize = 5 ∧
      "ai-reply-m".utf8ByteSize = 10 ∧ time.utf8ByteSize = 20 := by
    decide
  simp only [List.map_cons, List.map_nil, List.sum_cons, List.sum_nil, utf8ByteSize_string,
    dispatch, String.utf8ByteSize_append] at hsize
  unfold recordText
  refine hsize.trans ?_
  omega

/-- A ledger of such records fits its file. -/
theorem serde_toVec {records : Records} (hrecords : Sampled records)
    (hsize : records.size ≤ maximumDispatchRecords) :
    ∃ body, (dispatchLedgerPersistence serde).toVec records = some body ∧
      body.length ≤ maximumDispatchLedgerBytes := by
  -- Every row is one of the sample, and those have plain fields.
  have hrow : ∀ row ∈ (toPersisted records).records, ∃ n < 1000, ∃ state,
      row = toPersistedRecord { dispatch n with state } := by
    intro row hrow
    obtain ⟨⟨id, record⟩, hentry, rfl⟩ := List.mem_map.mp hrow
    obtain ⟨n, hn, state, -, rfl⟩ :=
      hrecords id record (ExtTreeMap.mem_toList_iff_getElem?_eq_some.mp hentry)
    exact ⟨n, hn, state, rfl⟩
  have hplain : (toPersisted records).fileVersion = dispatchLedgerFileVersion ∧
      ∀ row ∈ (toPersisted records).records, Plain row := by
    refine ⟨rfl, fun row hmem => ?_⟩
    obtain ⟨n, -, state, rfl⟩ := hrow row hmem
    exact plain_dispatch state
  refine ⟨asBytes (text (toPersisted records)), if_pos hplain, ?_⟩
  have hrows : ((toPersisted records).records.map recordText).length = records.size := by
    rw [List.length_map, toPersisted, List.length_map, ExtTreeMap.length_toList]
  -- A row has at most 400 bytes, so 512 of them are within the limit of the file.
  have harray := @utf8ByteSize_intercalate_le ((toPersisted records).records.map recordText) 400
    fun item hitem => by
      obtain ⟨row, hmem, rfl⟩ := List.mem_map.mp hitem
      obtain ⟨n, hn, state, rfl⟩ := hrow row hmem
      exact size_recordText hn state
  have hobject := utf8ByteSize_object_le [("fileVersion", "1"),
    ("records", array ((toPersisted records).records.map recordText))]
  have hnames : "fileVersion".utf8ByteSize = 11 ∧ "records".utf8ByteSize = 7 ∧
      "1".utf8ByteSize = 1 ∧ "[".utf8ByteSize = 1 ∧ "]".utf8ByteSize = 1 := by
    decide
  simp only [List.map_cons, List.map_nil, List.sum_cons, List.sum_nil, array,
    String.utf8ByteSize_append] at hobject
  rw [hrows] at harray
  have hlimit : records.size * 401 ≤ 512 * 401 := Nat.mul_le_mul_right 401 hsize
  rw [length_asBytes]
  refine hobject.trans ?_
  simp only [maximumDispatchLedgerBytes]
  omega

/-- The process is running with these data, and its directory is clean. -/
structure At (records : Records) (active : List String) (state : State) : Prop where
  running : state.running = true
  data : state.ledger.data = { records, active }
  clean : JsonStore.Clean state.ledger.world

section Calm

variable {records : Records} {active : List String} {state : State}

/-- As many of them as the ledger takes can be written. -/
theorem persist_run (hrecords : Sampled records) (hsize : records.size ≤ maximumDispatchRecords)
    {world : World} (hworld : JsonStore.Clean world) :
    ∃ world', ((dispatchLedgerPersistence serde).persist records).run [] world =
      (.done (), world') ∧ JsonStore.Clean world' := by
  obtain ⟨body, hvec, hfits⟩ := serde_toVec hrecords hsize
  exact JsonStore.persist_run hworld hvec hfits

/-- One more of them leaves the ledger one of such records. -/
theorem Sampled.insert (h : Sampled records) {n : ℕ} (hn : n < 1000) (state : AiDispatchState) :
    Sampled (records.insert (identifier n) { dispatch n with state }) :=
  AllEntries.insert h ⟨n, hn, state, rfl, rfl⟩

/-- So does one less. -/
theorem Sampled.prune (h : Sampled records) : Sampled (pruneTerminalRecords records) := by
  have hkey :
    AllEntries (fun id (record : AiDispatchRecord) => record.dispatchId = id) records := by
    intro id record hrecord
    obtain ⟨n, -, state, rfl, rfl⟩ := h id record hrecord
    rfl
  rcases pruneOldest_cases maximumDispatchRecords olderThan isTerminal hkey with
    heq | ⟨id, record, -, -, heq⟩
  · rw [pruneTerminalRecords, heq]
    exact h
  · rw [pruneTerminalRecords, heq]
    exact AllEntries.erase h id

/-- With room for a record, none is removed. -/
theorem prune_of_room (h : records.size < maximumDispatchRecords) :
    pruneTerminalRecords records = records := if_pos h

/-- A begin of a new dispatch reserves it, if there is room. -/
theorem begin_run (h : At records active state) (hrecords : Sampled records) {n : ℕ} (hn : n < 1000)
    (hinactive : identifier n ∉ active) (hfresh : records[identifier n]? = none)
    (hroom : (pruneTerminalRecords records).size < maximumDispatchRecords) :
    (begin serde [] (dispatch n) state.ledger).1 = .done .reserved ∧
      At ((pruneTerminalRecords records).insert (identifier n) (dispatch n))
        (identifier n :: active)
        (apply serde state (.call (.begin (dispatch n)) [])) := by
  obtain ⟨⟨data, world⟩, running⟩ := state
  obtain ⟨hrunning, hdata, hclean⟩ := h
  obtain rfl : data = { records, active } := hdata
  have hnext : Sampled ((pruneTerminalRecords records).insert (identifier n) (dispatch n)) :=
    hrecords.prune.insert hn .prepared
  have hsize : ((pruneTerminalRecords records).insert (identifier n) (dispatch n)).size ≤
      -- The place was made by pruning, if there had to be one.
      maximumDispatchRecords := by
    rw [ExtTreeMap.size_insert]
    split <;> omega
  obtain ⟨world', hpersist, hclean'⟩ := persist_run hnext hsize hclean
  have hbegin : begin serde [] (dispatch n) { data := { records, active }, world } =
      (.done .reserved,
        { data :=
            { records := (pruneTerminalRecords records).insert (identifier n) (dispatch n)
              active := identifier n :: active }
          world := world' }) := by
    have hcontains : ¬active.contains (dispatch n).dispatchId = true := by
      rw [List.contains_iff_mem]
      exact hinactive
    have hnone : records[(dispatch n).dispatchId]? = none := hfresh
    -- None of the source's refusals applies, so the record is persisted.
    unfold begin commit
    rw [dispatch_valid hn]
    dsimp only
    rw [if_neg hcontains, hnone]
    dsimp only
    rw [if_neg (by omega)]
    have hrun : ((dispatchLedgerPersistence serde).persist
        ((pruneTerminalRecords records).insert (dispatch n).dispatchId
          { dispatch n with state := .prepared })).run [] world = (.done (), world') := hpersist
    rw [hrun]
    rfl
  refine ⟨by rw [hbegin], ?_⟩
  have happly : apply serde { ledger := { data := { records, active }, world }, running }
      (.call (.begin (dispatch n)) []) =
        { ledger :=
            { data :=
                { records := (pruneTerminalRecords records).insert (identifier n) (dispatch n)
                  active := identifier n :: active }
              world := world' }
          running := true } := by
    rw [apply, if_pos hrunning, LedgerCall.run, hbegin]
    rfl
  rw [happly]
  exact ⟨rfl, rfl, hclean'⟩

/-- A mark is a transition. -/
theorem run_of_mark (call : LedgerCall) {dispatchId updatedAt : String}
    {expected next : AiDispatchState} {finish : Bool}
    (hmark : call.mark = some (dispatchId, expected, next, updatedAt, finish))
    (ledger : DesktopAiDispatchLedger) :
    call.run serde [] ledger = withAnswer (fun _ => none)
      (transition serde [] dispatchId expected next updatedAt finish ledger) := by
  cases call with
  | begin | finishUnknown => simp [LedgerCall.mark] at hmark
  | _ =>
    simp only [LedgerCall.mark, Option.some.injEq, Prod.mk.injEq] at hmark
    obtain ⟨rfl, rfl, rfl, rfl, rfl⟩ := hmark
    rfl

/-- A mark of an active dispatch moves its record. -/
theorem mark_run (h : At records active state) (hrecords : Sampled records)
    (hsize : records.size ≤ maximumDispatchRecords) {n : ℕ} (hn : n < 1000) (call : LedgerCall)
    {expected next : AiDispatchState} {finish : Bool}
    (hmark : call.mark = some (identifier n, expected, next, time, finish))
    (hactive : identifier n ∈ active)
    (hcurrent : records[identifier n]? = some { dispatch n with state := expected }) :
    (call.run serde [] state.ledger).1 = .done none ∧
      At (records.insert (identifier n) { dispatch n with state := next })
        (if finish then active.filter (· != identifier n) else active)
        (apply serde state (.call call [])) := by
  obtain ⟨⟨data, world⟩, running⟩ := state
  obtain ⟨hrunning, hdata, hclean⟩ := h
  obtain rfl : data = { records, active } := hdata
  have hvalid : validDispatchId (identifier n) = true := by
    have hdispatch := dispatch_valid hn
    unfold validateRecord at hdispatch
    by_contra hinvalid
    have hfalse : validDispatchId (dispatch n).dispatchId = false := by
      simpa [identifier] using hinvalid
    rw [hfalse] at hdispatch
    simp at hdispatch
  have htime : validTimestamp time = true := by decide
  have hcontains : active.contains (identifier n) = true := by
    rw [List.contains_iff_mem]
    exact hactive
  have hnext : Sampled (records.insert (identifier n) { dispatch n with state := next }) :=
    hrecords.insert hn next
  have hkept : (records.insert (identifier n) { dispatch n with state := next }).size ≤
      maximumDispatchRecords := by
    -- A mark replaces a record, so the table does not grow.
    have hmem : records.contains (identifier n) = true := by
      rw [ExtTreeMap.contains_eq_isSome_getElem?, hcurrent]
      rfl
    rw [ExtTreeMap.size_insert, if_pos hmem]
    exact hsize
  obtain ⟨world', hpersist, hclean'⟩ := persist_run hnext hkept hclean
  have htransition : transition serde [] (identifier n) expected next time finish
      { data := { records, active }, world } =
        (.done (),
          { data :=
              { records := records.insert (identifier n) { dispatch n with state := next }
                active := if finish then active.filter (· != identifier n) else active }
            world := world' }) := by
    unfold transition commit
    rw [hvalid, htime]
    dsimp only
    rw [hcontains, hcurrent]
    have hrun : ((dispatchLedgerPersistence serde).persist
        (records.insert (identifier n)
          { { dispatch n with state := expected } with state := next, updatedAt := time })).run []
          world = (.done (), world') := hpersist
    simp only [Bool.not_true, Bool.or_self, Bool.false_eq_true, if_false, bne_self_eq_false, hrun]
    rfl
  have hrun := run_of_mark call hmark { data := { records, active }, world }
  rw [htransition] at hrun
  refine ⟨by rw [hrun]; rfl, ?_⟩
  rw [apply, if_pos hrunning, hrun]
  exact ⟨rfl, rfl, hclean'⟩

/-- A turn that ends unknown is no longer active, and its record stays. -/
theorem finishUnknown_run (h : At records active state) (n : ℕ) :
    At records (active.filter (· != identifier n))
      (apply serde state (.call (.finishUnknown (identifier n)) [])) := by
  obtain ⟨⟨data, world⟩, running⟩ := state
  obtain ⟨hrunning, hdata, hclean⟩ := h
  obtain rfl : data = { records, active } := hdata
  rw [apply, if_pos hrunning]
  exact ⟨rfl, rfl, hclean⟩

/-- Some dispatches from the first number on were put in, whose turns were started. -/
structure Filled (records : Records) (first count : ℕ) (filled : Records) : Prop where
  sampled : Sampled filled
  size : filled.size = records.size + count
  entries : ∀ n, filled[identifier n]? =
    if first ≤ n ∧ n < first + count then some { dispatch n with state := .externalStarted }
    else records[identifier n]?

/-- The events of a turn whose process does not learn how it ended. -/
def turn (n : ℕ) : List Event :=
  [.call (.begin (dispatch n)) [], .call (.markExternalStarted (identifier n) time) [],
    .call (.finishUnknown (identifier n)) []]

/-- Such turns of some dispatches, from the first number on. -/
def fill (first : ℕ) : ℕ → List Event
  | 0 => []
  | count + 1 => fill first count ++ turn (first + count)

/-- The turn of a new dispatch adds its record, and leaves it completed. -/
theorem turn_run (h : At records [] state) (hrecords : Sampled records) {n : ℕ} (hn : n < 1000)
    (hfresh : records[identifier n]? = none) (hsize : records.size < maximumDispatchRecords) :
    ∃ filled, Filled records n 1 filled ∧ At filled [] (run serde (turn n) state) := by
  -- There is room, so nothing is pruned.
  have hprune := prune_of_room hsize
  have hbegin := (begin_run h hrecords hn List.not_mem_nil hfresh (by rw [hprune]; exact hsize)).2
  rw [hprune] at hbegin
  have hreserved : (records.insert (identifier n) (dispatch n)).size = records.size + 1 := by
    have hnot : ¬records.contains (identifier n) = true := by
      rw [ExtTreeMap.contains_eq_isSome_getElem?, hfresh]
      simp
    rw [ExtTreeMap.size_insert, if_neg hnot]
  have hprepared : Sampled (records.insert (identifier n) (dispatch n)) :=
    hrecords.insert hn .prepared
  have hstarted := (mark_run hbegin hprepared (by omega) hn
    (.markExternalStarted (identifier n) time) rfl List.mem_cons_self
    ExtTreeMap.getElem?_insert_self).2
  have hfinished := finishUnknown_run hstarted n
  have hactive : ([identifier n].filter (· != identifier n)) = [] := by simp
  rw [if_neg (by decide), hactive] at hfinished
  refine ⟨_, ⟨hprepared.insert hn .externalStarted, ?_, fun other => ?_⟩, hfinished⟩
  · have hmem : (records.insert (identifier n) (dispatch n)).contains (identifier n) = true :=
      ExtTreeMap.contains_insert_self
    rw [ExtTreeMap.size_insert, if_pos hmem]
    exact hreserved
  -- The record of this turn is started now, and the others stay as they were.
  · by_cases hother : other = n
    · subst hother
      rw [if_pos (by omega)]
      exact ExtTreeMap.getElem?_insert_self
    · have hne : identifier n ≠ identifier other := fun heq => hother (identifier_inj heq).symm
      rw [if_neg (by omega), ExtTreeMap.getElem?_insert, ExtTreeMap.getElem?_insert]
      simp [hne]

/-- Turns that end unknown fill the ledger. -/
theorem fill_run (h : At records [] state) (hrecords : Sampled records) (first count : ℕ)
    (hcount : first + count ≤ 1000)
    (hfresh : ∀ n, first ≤ n → n < first + count → records[identifier n]? = none)
    (hsize : records.size + count ≤ maximumDispatchRecords) :
    ∃ filled, Filled records first count filled ∧
      At filled [] (run serde (fill first count) state) := by
  induction count with
  | zero =>
    refine ⟨records, ⟨hrecords, rfl, fun n => ?_⟩, h⟩
    rw [if_neg (by omega)]
  | succ count ih =>
    obtain ⟨filled, hfilled, hat⟩ :=
      ih (by omega) (fun n hfirst hlast => hfresh n hfirst (by omega))
      (by omega)
    have hlast : filled[identifier (first + count)]? = none := by
      rw [hfilled.entries, if_neg (by omega)]
      exact hfresh _ (by omega) (by omega)
    have hroom : filled.size < maximumDispatchRecords := by
      rw [hfilled.size]
      omega
    obtain ⟨next, hnext, hat'⟩ := turn_run hat hfilled.sampled (by omega) hlast hroom
    rw [fill, run_append]
    refine ⟨next, ⟨hnext.sampled, ?_, fun n => ?_⟩, hat'⟩
    · rw [hnext.size, hfilled.size]
      omega
    · rw [hnext.entries, hfilled.entries]
      split_ifs <;> first | rfl | omega

/-- In a full ledger with one record whose turn is over, that is the one that is pruned. -/
theorem prune_of_only (hrecords : Sampled records) (hsize : records.size = maximumDispatchRecords)
    (old : ℕ) (hold : ∃ record, records[identifier old]? = some record ∧ isTerminal record = true)
    (honly : ∀ n, n ≠ old → ∀ record, records[identifier n]? = some record →
      isTerminal record = false) :
    pruneTerminalRecords records = records.erase (identifier old) := by
  obtain ⟨record, hrecord, hover⟩ := hold
  have hkey :
    AllEntries (fun id (record : AiDispatchRecord) => record.dispatchId = id) records := by
    intro id record hrecord
    obtain ⟨n, -, state, rfl, rfl⟩ := hrecords id record hrecord
    rfl
  have hspare : ¬AllEntries (fun _ record => isTerminal record = false) records := by
    intro hnone
    rw [hnone _ _ hrecord] at hover
    cases hover
  -- Some record is pruned, and only the old one can be.
  obtain ⟨id, pruned, hpruned, hterminal, heq⟩ : ∃ id pruned, records[id]? = some pruned ∧
      isTerminal pruned = true ∧ pruneTerminalRecords records = records.erase id :=
    pruneOldest_eq_erase hkey hsize.ge hspare
  obtain ⟨n, -, state, rfl, rfl⟩ := hrecords id pruned hpruned
  by_cases hn : n = old
  · rw [heq, hn]
  · rw [honly n hn _ hpruned] at hterminal
    cases hterminal

/-- A full ledger with one record whose turn is over forgets it for a new one. -/
theorem replace_run (h : At records [] state) (hrecords : Sampled records)
    (hsize : records.size = maximumDispatchRecords) (old new : ℕ) (hnew : new < 1000)
    (hold : ∃ record, records[identifier old]? = some record ∧ isTerminal record = true)
    (honly : ∀ n, n ≠ old → ∀ record, records[identifier n]? = some record →
      isTerminal record = false)
    (hfresh : records[identifier new]? = none) :
    (begin serde [] (dispatch new) state.ledger).1 = .done .reserved ∧
      At ((records.erase (identifier old)).insert (identifier new) (dispatch new)) [identifier new]
        (apply serde state (.call (.begin (dispatch new)) [])) ∧
      Sampled ((records.erase (identifier old)).insert (identifier new) (dispatch new)) ∧
      ((records.erase (identifier old)).insert (identifier new) (dispatch new)).size =
        maximumDispatchRecords := by
  have hprune := prune_of_only hrecords hsize old hold honly
  obtain ⟨record, hrecord, hover⟩ := hold
  -- One record goes and one comes, so the table stays full.
  have herased : (records.erase (identifier old)).size = records.size - 1 := by
    have hmem : records.contains (identifier old) = true := by
      rw [ExtTreeMap.contains_eq_isSome_getElem?, hrecord]
      rfl
    rw [ExtTreeMap.size_erase, if_pos hmem]
  have hlimit : (0 : ℕ) < maximumDispatchRecords := by decide
  obtain ⟨hreserved, hat⟩ := begin_run h hrecords hnew List.not_mem_nil hfresh
    (by rw [hprune, herased]; omega)
  have hsampled : Sampled (pruneTerminalRecords records) := hrecords.prune
  rw [hprune] at hat hsampled
  refine ⟨hreserved, hat, hsampled.insert hnew .prepared, ?_⟩
  have hnot : ¬(records.erase (identifier old)).contains (identifier new) = true := by
    rw [ExtTreeMap.contains_eq_isSome_getElem?, ExtTreeMap.getElem?_erase]
    simp [hfresh]
  rw [ExtTreeMap.size_insert, if_neg hnot, herased]
  omega

end Calm

/-! ### A turn that is started twice -/

/-- A mark that is done starts its turn. -/
theorem starts_of_done {state : State} {dispatchId updatedAt : String}
    (hrunning : state.running = true)
    (hdone : ((LedgerCall.markExternalStarted dispatchId updatedAt).run serde []
      state.ledger).1 = .done none) :
    Starts serde dispatchId state (.call (.markExternalStarted dispatchId updatedAt) []) := by
  rcases hrun : markExternalStarted serde [] dispatchId updatedAt state.ledger with
    ⟨_ | e | _, ledger⟩
  · exact ⟨updatedAt, [], ledger, rfl, hrunning, hrun⟩
  · rw [LedgerCall.run, hrun] at hdone
    cases hdone
  · rw [LedgerCall.run, hrun] at hdone
    cases hdone

/-- A new process with an empty directory. -/
theorem restart_at : At ∅ [] (run serde [.restart 7] (.first (World.empty 7))) := by
  have hconsistent : (dispatchLedgerPersistence serde).Consistent ValidRecords
      ⟨World.empty 7, none⟩ := ⟨⟨.inl rfl, .inl rfl⟩, rfl⟩
  have hpersistent : persistent serde ((World.empty 7).restart 7) =
      .ok { data := { records := ∅, active := [] }, world := World.empty 7 } :=
    Holds.persistent serde_roundTrips hconsistent
  have hrun : run serde [.restart 7] (.first (World.empty 7)) =
      { ledger := { data := { records := ∅, active := [] }, world := World.empty 7 },
        running := true } := by
    rw [run, List.foldl_cons, List.foldl_nil, apply]
    dsimp only [State.first]
    rw [hpersistent]
  rw [hrun]
  exact ⟨rfl, rfl, ⟨⟨.inl rfl, .inl rfl⟩, fun _ _ => rfl⟩⟩

/-- The first dispatch is begun. -/
def beginFirst : List Event := [.restart 7, .call (.begin (dispatch 0)) []]

/-- Its turn is started. -/
def startFirst : Event := .call (.markExternalStarted (identifier 0) time) []

/-- The turn is completed. The ledger is filled, and one more dispatch is begun. -/
def forget : List Event :=
  .call (.markCompleted (identifier 0) time) [] :: (fill 1 511 ++
    [.call (.begin (dispatch 512)) [], .call (.markFailed (identifier 512) time) []])

/-- The first dispatch is begun, started and completed. -/
theorem first_run :
    Starts serde (identifier 0) (run serde beginFirst (.first (World.empty 7))) startFirst ∧
      ∃ records, Sampled records ∧ records.size = 1 ∧
        (∀ n, records[identifier n]? =
          if n = 0 then some { dispatch 0 with state := .completed } else none) ∧
        At records [] (run serde [startFirst, .call (.markCompleted (identifier 0) time) []]
          (run serde beginFirst (.first (World.empty 7)))) := by
  have hempty : Sampled ∅ := AllEntries.empty
  have hroom : (∅ : Records).size < maximumDispatchRecords := by decide
  have hprune : pruneTerminalRecords ∅ = ∅ := prune_of_room hroom
  have hbegin := (begin_run restart_at hempty (n := 0) (by decide) List.not_mem_nil
    ExtTreeMap.getElem?_empty (by rw [hprune]; exact hroom)).2
  rw [hprune] at hbegin
  -- Each step puts in the same record, in another state.
  have hone : ∀ records : Records, records.size = 1 → records.contains (identifier 0) = true →
      ∀ record, (records.insert (identifier 0) record).size = 1 ∧
        (records.insert (identifier 0) record).contains (identifier 0) = true := by
    intro records hsize hmem record
    rw [ExtTreeMap.size_insert, if_pos hmem]
    exact ⟨hsize, ExtTreeMap.contains_insert_self⟩
  have hbegun : Sampled ((∅ : Records).insert (identifier 0) (dispatch 0)) :=
    hempty.insert (by decide) .prepared
  have hsize : ((∅ : Records).insert (identifier 0) (dispatch 0)).size = 1 := by
    rw [ExtTreeMap.size_insert, if_neg (by simp)]
    rfl
  have hlimit : (1 : ℕ) ≤ maximumDispatchRecords := by decide
  obtain ⟨hdone, hstarted⟩ := mark_run hbegin hbegun (by omega) (by decide)
    (.markExternalStarted (identifier 0) time) rfl List.mem_cons_self
    ExtTreeMap.getElem?_insert_self
  have hstartedSampled := @Sampled.insert _ hbegun 0 (by decide) .externalStarted
  obtain ⟨hsize, hmem⟩ := hone _ hsize ExtTreeMap.contains_insert_self
    { dispatch 0 with state := .externalStarted }
  obtain ⟨-, hcompleted⟩ := mark_run hstarted hstartedSampled (by omega) (by decide)
    (.markCompleted (identifier 0) time) rfl List.mem_cons_self
    ExtTreeMap.getElem?_insert_self
  obtain ⟨hsize, -⟩ := hone _ hsize hmem { dispatch 0 with state := .completed }
  have hactive : ([identifier 0].filter (· != identifier 0)) = [] := by simp
  rw [if_pos rfl, if_neg (by decide), hactive] at hcompleted
  refine ⟨starts_of_done hbegin.running hdone, _,
    hstartedSampled.insert (by decide) .completed, hsize, fun n => ?_, hcompleted⟩
  by_cases hn : n = 0
  · rw [if_pos hn, hn]
    exact ExtTreeMap.getElem?_insert_self
  · have hne : identifier 0 ≠ identifier n := fun heq => hn (identifier_inj heq).symm
    rw [if_neg hn, ExtTreeMap.getElem?_insert, ExtTreeMap.getElem?_insert,
      ExtTreeMap.getElem?_insert]
    simp [hne]

/-- Then the ledger is filled, and forgets it for one more. -/
theorem forget_run :
    ∃ records, Sampled records ∧ records.size = maximumDispatchRecords ∧
      (∀ n, records[identifier n]? =
        if n = 512 then some { dispatch 512 with state := .failed }
        else if 1 ≤ n ∧ n < 512 then some { dispatch n with state := .externalStarted }
        else none) ∧
      At records [] (run serde (beginFirst ++ startFirst :: forget) (.first (World.empty 7))) := by
  obtain ⟨-, records, hsampled, hsize, hentries, hat⟩ := first_run
  obtain ⟨filled, hfilled, hat⟩ := fill_run hat hsampled 1 511 (by decide)
    (fun n hfirst _ => by rw [hentries, if_neg (by omega)])
    (by rw [hsize]; decide)
  have hfull : filled.size = maximumDispatchRecords := by
    rw [hfilled.size, hsize]
    rfl
  have hcontents : ∀ n, filled[identifier n]? =
      if 1 ≤ n ∧ n < 512 then some { dispatch n with state := .externalStarted }
      else if n = 0 then some { dispatch 0 with state := .completed } else none := by
    intro n
    rw [hfilled.entries, hentries]
  -- The completed dispatch is the only one that can be pruned.
  obtain ⟨-, hbegun, hsampled, hsize⟩ := replace_run hat hfilled.sampled hfull 0 512
    (by decide) ⟨_, by rw [hcontents]; rfl, rfl⟩
    (fun n hn record hrecord => by
      rw [hcontents, if_neg hn] at hrecord
      split_ifs at hrecord
      obtain rfl := Option.some.inj hrecord
      rfl)
    (by rw [hcontents]; rfl)
  obtain ⟨-, hfailed⟩ := mark_run hbegun hsampled hsize.le (by decide)
    (.markFailed (identifier 512) time) rfl List.mem_cons_self ExtTreeMap.getElem?_insert_self
  have hactive : ([identifier 512].filter (· != identifier 512)) = [] := by simp
  rw [if_pos rfl, hactive] at hfailed
  have hlast := @Sampled.insert _ hsampled 512 (by decide) .failed
  refine ⟨_, hlast, ?_, fun n => ?_, ?_⟩
  · rw [ExtTreeMap.size_insert, if_pos ExtTreeMap.contains_insert_self, hsize]
  · by_cases hn : n = 512
    · rw [if_pos hn, hn]
      exact ExtTreeMap.getElem?_insert_self
    · have hne : identifier 512 ≠ identifier n := fun heq => hn (identifier_inj heq).symm
      rw [if_neg hn, ExtTreeMap.getElem?_insert, ExtTreeMap.getElem?_insert,
        ExtTreeMap.getElem?_erase, hcontents]
      simp only [Std.compare_eq_iff_eq, hne, if_false]
      by_cases hzero : n = 0
      · subst hzero
        rfl
      · have hfirst : identifier 0 ≠ identifier n := fun heq => hzero (identifier_inj heq).symm
        rw [if_neg hfirst, if_neg hzero]
  · have hsplit : startFirst :: forget =
        [startFirst, .call (.markCompleted (identifier 0) time) []] ++ (fill 1 511 ++
          [.call (.begin (dispatch 512)) [], .call (.markFailed (identifier 512) time) []]) := by
      rw [forget, List.cons_append, List.cons_append, List.nil_append]
    rw [run_append, hsplit, run_append, run_append, run_cons, run_cons, run_nil]
    exact hfailed

/-- The first dispatch is begun again, and its turn is started a second time. -/
theorem started_twice :
    Starts serde (identifier 0) (run serde beginFirst (.first (World.empty 7))) startFirst ∧
      (begin serde [] (dispatch 0) (run serde (beginFirst ++ startFirst :: forget)
        (.first (World.empty 7))).ledger).1 = .done .reserved ∧
      Starts serde (identifier 0) (run serde (beginFirst ++ startFirst :: forget ++
        [.call (.begin (dispatch 0)) []]) (.first (World.empty 7))) startFirst := by
  obtain ⟨records, hsampled, hfull, hentries, hat⟩ := forget_run
  obtain ⟨hreserved, hbegun, hsampled, hsize⟩ := replace_run hat hsampled hfull 512 0
    (by decide) ⟨_, by rw [hentries]; rfl, rfl⟩
    (fun n hn record hrecord => by
      rw [hentries, if_neg hn] at hrecord
      split_ifs at hrecord
      obtain rfl := Option.some.inj hrecord
      rfl)
    (by rw [hentries]; rfl)
  obtain ⟨hdone, -⟩ := mark_run hbegun hsampled hsize.le (by decide)
    (.markExternalStarted (identifier 0) time) rfl List.mem_cons_self
    ExtTreeMap.getElem?_insert_self
  refine ⟨first_run.1, hreserved, ?_⟩
  rw [run_append, run_cons, run_nil]
  exact starts_of_done hbegun.running hdone

/-- A persist loses no file that it is not stopped in. -/
theorem not_loses {state : State} {event : Event} (h : ∀ call faults, event = .call call faults →
    faults = []) : ¬Loses serde state event := by
  rintro ⟨call, faults, kept, next, answer, rfl, -, -, hexposes⟩
  obtain rfl := h call faults rfl
  refine hexposes.stopped fun _ fault hfault => ?_
  simp at hfault

/-- The first dispatch is started and completed, and stays known. -/
theorem dispatch_laws_first : Answered serde (identifier 0)
    (run serde (beginFirst ++ startFirst :: [.call (.markCompleted (identifier 0) time) []])
      (.first (World.empty 7))) := by
  refine (dispatch_laws serde_roundTrips rfl rfl
    (beginFirst ++ startFirst :: [.call (.markCompleted (identifier 0) time) []])
    fun before event rest heq => not_loses fun call faults hcall => ?_).1 beginFirst startFirst
      [.call (.markCompleted (identifier 0) time) []] (List.prefix_refl _)
        (identifier 0) first_run.1
      fun before event rest heq hprunes => ?_
  · have hmem : event ∈ beginFirst ++
      startFirst :: [.call (.markCompleted (identifier 0) time) []] := by
      rw [heq]
      simp
    subst hcall
    simp only [beginFirst, startFirst, List.cons_append, List.nil_append, List.mem_cons,
      List.not_mem_nil, reduceCtorEq, Event.call.injEq, false_or, or_false] at hmem
    rcases hmem with ⟨-, h⟩ | ⟨-, h⟩ | ⟨-, h⟩ <;> exact h
  · obtain ⟨record, old, faults, rfl, -⟩ := hprunes
    have hmem : Event.call (.begin record) faults ∈
        [Event.call (.markCompleted (identifier 0) time) []] := by
      rw [heq]
      simp
    simp at hmem

end Sample

end Mio.Desktop.AiDispatchLedger
