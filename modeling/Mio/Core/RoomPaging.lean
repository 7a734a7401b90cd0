import Mio.Core.RoomHistory

/-!
# Reading a room page by page

A page of a room begins behind the cursor of its query, or it is the room's last page where the
query has none. Its own cursor is the identifier of its last message, with which the next query goes
on (`readPages`). Since message identifiers are distinct and a room's messages are only added to, a
cursor keeps its position, so the pages of a reader put together are a contiguous part of the room's
messages (`readRoom_pages`).
-/

namespace Mio.Core

open Library

/-! ## Queries and pages -/

/-- The check of a query. -/
def validReadQuery (roomId : String) (afterMessageId : Option String) (limit : UInt8) : Bool :=
  validIdentifier roomId && !(afterMessageId.any fun value => !validIdentifier value) &&
    (1 ≤ limit && limit ≤ 30)

/-- A query that has passed its check. -/
structure RoomReadQuery where
  roomId : String
  afterMessageId : Option String
  limit : UInt8
  /-- The query has passed the check. -/
  valid : validReadQuery roomId afterMessageId limit = true

/-- Why a query is not made. -/
inductive RoomReadQueryError where
  | invalidQuery
  deriving DecidableEq

/-- A query for a page, if it passes its check. -/
def RoomReadQuery.tryNew (roomId : String) (afterMessageId : Option String) (limit : UInt8) :
    Except RoomReadQueryError RoomReadQuery :=
  if h : validReadQuery roomId afterMessageId limit = true then
    .ok ⟨roomId, afterMessageId, limit, h⟩
  else .error .invalidQuery

/-- The room as a page shows it. -/
structure RoomReadView where
  id : String
  name : String
  participants : List RoomParticipant
  messages : List RoomMessage
  deriving DecidableEq

/-- Where a page lies among the messages. -/
structure RoomReadPage where
  afterMessageId : Option String
  limit : UInt8
  returned : ℕ
  hasMoreBefore : Bool
  hasMoreAfter : Bool
  nextAfterMessageId : Option String
  deriving DecidableEq

/-- A page of a room. -/
structure RoomReadSuccess where
  ok : Bool
  snapshotGeneratedAt : String
  room : RoomReadView
  page : RoomReadPage
  deriving DecidableEq

/-- Why there is no page. -/
structure RoomReadFailure where
  ok : Bool
  code : String
  message : String
  deriving DecidableEq

/-- The answer to a query. -/
inductive RoomReadResult where
  | success (result : RoomReadSuccess)
  | failure (result : RoomReadFailure)
  deriving DecidableEq

/-- The page of a room from an index on. -/
def readPageAt (snapshot : RoomSnapshot) (room : Room) (query : RoomReadQuery) (startIndex : ℕ) :
    RoomReadResult :=
  let limit := query.limit.toNat
  let messages := (room.messages.drop startIndex).take limit
  let participants := room.participantIds.filterMap fun participantId =>
    snapshot.participants.find? fun participant => participant.id == participantId
  let nextAfterMessageId := (messages.getLast?.map (·.id)).or query.afterMessageId
  .success
    { ok := true
      snapshotGeneratedAt := snapshot.generatedAt
      room := { id := room.id, name := room.name, participants, messages }
      page :=
        { afterMessageId := query.afterMessageId
          limit := query.limit
          returned := min (room.messages.length - startIndex) limit
          hasMoreBefore := query.afterMessageId.isNone && 0 < startIndex
          hasMoreAfter := startIndex + limit < room.messages.length
          nextAfterMessageId } }

/-- A page of a room: the messages behind the cursor, or the last ones where there is none. -/
def readRoom (snapshot : RoomSnapshot) (query : RoomReadQuery) : RoomReadResult :=
  match snapshot.rooms.find? (fun room => room.id == query.roomId) with
  | none => .failure ⟨false, "room_not_found", "The requested room is not available."⟩
  | some room =>
    match query.afterMessageId with
    | some cursor =>
      match room.messages.findIdx? (fun message => message.id == cursor) with
      | none =>
        .failure ⟨false, "cursor_not_found", "The requested message cursor is not available."⟩
      | some cursorIndex => readPageAt snapshot room query (cursorIndex + 1)
    | none => readPageAt snapshot room query (room.messages.length - query.limit.toNat)

/-- Why a message is not found. -/
inductive RoomMessageFindError where
  | invalidLookup
  | roomNotFound
  | messageNotFound
  | sourceUnavailable
  deriving DecidableEq

/-- The message of a room with an identifier. -/
def findMessage (snapshot : RoomSnapshot) (roomId messageId : String) :
    Except RoomMessageFindError RoomMessage :=
  if !validIdentifier roomId || !validIdentifier messageId then .error .invalidLookup
  else
    match snapshot.rooms.find? (fun room => room.id == roomId) with
    | none => .error .roomNotFound
    | some room =>
      match room.messages.find? (fun message => message.id == messageId) with
      | none => .error .messageNotFound
      | some message => .ok message

/-! ## Readers -/

/-- A query with its answer. There is none where the query does not pass its check, or where it is
answered with a failure. -/
def readPage (roomId : String) (afterMessageId : Option String) (limit : UInt8)
    (snapshot : RoomSnapshot) : Option RoomReadSuccess :=
  match RoomReadQuery.tryNew roomId afterMessageId limit with
  | .error _ => none
  | .ok query =>
    match readRoom snapshot query with
    | .failure _ => none
    | .success result => some result

/-- What happens before a page is read, and the limit of the page. -/
abbrev Turn := List RoomOperation × UInt8

/-- The pages that a reader gets in turn, each with the cursor of the one before. -/
def readPages (roomId : String) :
    List Turn → Option String → RoomSnapshot → Option (List RoomReadSuccess)
  | [], _, _ => some []
  | (operations, limit) :: turns, cursor, snapshot =>
    let snapshot := RoomOperation.run operations snapshot
    match readPage roomId cursor limit snapshot with
    | none => none
    | some result =>
      (readPages roomId turns result.page.nextAfterMessageId snapshot).map (result :: ·)

/-- The messages of the pages. -/
def pageMessages (pages : List RoomReadSuccess) : List RoomMessage :=
  pages.flatMap (·.room.messages)

/-- The calls of all turns. -/
def turnOperations (turns : List Turn) : List RoomOperation := turns.flatMap (·.1)

/-- A limit that a query may have. -/
def validLimit (limit : UInt8) : Bool := 1 ≤ limit && limit ≤ 30

/-- A limit that passes its check is not zero. -/
theorem one_le_of_validLimit {limit : UInt8} (h : validLimit limit = true) : 1 ≤ limit.toNat := by
  simp only [validLimit, Bool.and_eq_true, decide_eq_true_eq, UInt8.le_iff_toNat_le] at h
  exact h.1

/-! ## One page -/

/-- The messages of one room of a valid snapshot have distinct identifiers. -/
theorem ValidSnapshot.room_messages_nodup {snapshot : RoomSnapshot} (hs : ValidSnapshot snapshot)
    {room : Room} (hroom : room ∈ snapshot.rooms) : (room.messages.map (·.id)).Nodup := by
  have hsublist : room.messages.Sublist snapshot.messages := by
    obtain ⟨before, after, hsplit⟩ := List.append_of_mem hroom
    rw [RoomSnapshot.messages, hsplit, List.flatMap_append, List.flatMap_cons]
    exact (List.sublist_append_left _ _).trans (List.sublist_append_right _ _)
  exact hs.messages_nodup.sublist (hsublist.map _)

/-- A lookup finds the message of a room that has the identifier. -/
theorem findMessage_eq_ok_iff {snapshot : RoomSnapshot} (hs : ValidSnapshot snapshot)
    {roomId messageId : String} {message : RoomMessage} :
    findMessage snapshot roomId messageId = .ok message ↔
      message ∈ snapshot.messages ∧ message.roomId = roomId ∧ message.id = messageId := by
  unfold findMessage
  constructor
  · intro h
    split at h
    · cases h
    split at h
    · cases h
    rename_i room hroom
    split at h
    · cases h
    rename_i found hfound
    obtain rfl := Except.ok.inj h
    have hmem := List.mem_of_find?_eq_some hroom
    have hmessage := List.mem_of_find?_eq_some hfound
    have hroomId : room.id = roomId := by simpa using List.find?_some hroom
    -- The room that is found holds the message, and a message names its room.
    refine ⟨List.mem_flatMap.mpr ⟨room, hmem, hmessage⟩, ?_, by simpa using List.find?_some hfound⟩
    rw [← hroomId]
    exact ((hs.rooms room hmem).messages found hmessage).roomId
  · rintro ⟨hmessage, rfl, rfl⟩
    obtain ⟨room, hroom, hmem⟩ := List.mem_flatMap.mp hmessage
    have hvalid := (hs.rooms room hroom).messages message hmem
    -- Ids are distinct, so the search finds this room and this message.
    have hfindRoom : snapshot.rooms.find? (fun other => other.id == message.roomId) =
      some room := by
      rw [hvalid.roomId]
      exact find?_key hs.rooms_nodup hroom
    have hfindMessage : room.messages.find? (fun other => other.id == message.id) = some message :=
      find?_key (hs.room_messages_nodup hroom) hmem
    rw [if_neg (by simp [hvalid.shape.id, hvalid.shape.roomId]), hfindRoom]
    dsimp only
    rw [hfindMessage]

/-- Where a reader is in the messages of a room: past a position with its cursor, or without a
cursor, where the next page is the last one of the room. -/
inductive ReaderAt (messages : List RoomMessage) (limit : ℕ) : Option String → ℕ → Prop
  | cursor {cursor : String} {position : ℕ}
    (h : CursorAt RoomMessage.id messages cursor position) :
    ReaderAt messages limit (some cursor) position
  | latest : ReaderAt messages limit none (messages.length - limit)

/-- What a page has to do with the messages of its room. -/
structure PageLaws (messages : List RoomMessage) (position limit : ℕ) (result : RoomReadSuccess) :
    Prop where
  /-- It has as many of the next messages as the limit allows. -/
  taken : result.room.messages = (messages.drop position).take limit
  returned : result.page.returned = result.room.messages.length
  hasMoreAfter : result.page.hasMoreAfter = decide (position + limit < messages.length)
  hasMoreBefore : result.page.hasMoreBefore =
    (result.page.afterMessageId.isNone && decide (0 < position))
  /-- Its cursor is that of its last message, or the one of its query if it has none. -/
  next : result.page.nextAfterMessageId = result.page.afterMessageId ∧ result.room.messages = [] ∨
    ∃ cursor, result.page.nextAfterMessageId = some cursor ∧
      CursorAt RoomMessage.id messages cursor (position + result.room.messages.length)

section Pages

variable {snapshot : RoomSnapshot} {room : Room} {limit : UInt8} {cursor : Option String}
  {position : ℕ}

/-- Every query for a room of a valid snapshot, without a cursor or with the identifier of one of
its messages, is answered with a page. -/
theorem readPage_eq_some (hs : ValidSnapshot snapshot) (hroom : room ∈ snapshot.rooms)
    (hlimit : validLimit limit = true) (hat : ReaderAt room.messages limit.toNat cursor position) :
    ∃ result, readPage room.id cursor limit snapshot = some result ∧
      result.page.afterMessageId = cursor ∧
      PageLaws room.messages position limit.toNat result := by
  have hvalidRoom := hs.rooms room hroom
  have hcursor : ∀ id, cursor = some id → validIdentifier id = true ∧
      room.messages.findIdx? (fun message => message.id == id) = some (position - 1) ∧
      0 < position := by
    rintro id rfl
    cases hat with
    | cursor h =>
      obtain ⟨i, message, rfl, hi, rfl⟩ := h
      have hmem := List.mem_of_getElem? hi
      exact ⟨(hvalidRoom.messages message hmem).shape.id,
        findIdx?_key (hs.room_messages_nodup hroom) hi, Nat.succ_pos i⟩
  have hquery : validReadQuery room.id cursor limit = true := by
    have hany : cursor.any (fun value => !validIdentifier value) = false := by
      rcases cursor with _ | id
      · rfl
      · simp [(hcursor id rfl).1]
    rw [validReadQuery, hvalidRoom.id, hany]
    exact hlimit
  have hfind : snapshot.rooms.find? (fun other => other.id == room.id) = some room :=
    find?_key hs.rooms_nodup hroom
  -- Both kinds of query come down to a page from the position on.
  have hread : ∀ query : RoomReadQuery, query.roomId = room.id → query.afterMessageId = cursor →
      query.limit = limit → readRoom snapshot query = readPageAt snapshot room query position := by
    rintro query hid hafter hsame
    rw [readRoom, hid, hfind]
    dsimp only
    rw [hafter]
    rcases cursor with _ | id
    · cases hat with
      | latest => rw [hsame]
    · obtain ⟨-, hindex, hpos⟩ := hcursor id rfl
      simp only [hindex]
      rw [Nat.sub_add_cancel hpos]
  rw [readPage, RoomReadQuery.tryNew, dif_pos hquery]
  dsimp only
  rw [hread _ rfl rfl rfl]
  refine ⟨_, rfl, rfl, rfl, ?_, rfl, rfl, ?_⟩
  · simp [Nat.min_comm]
  · rcases hlast : ((room.messages.drop position).take limit.toNat).getLast? with _ | message
    · left
      exact ⟨rfl, List.getLast?_eq_none_iff.mp hlast⟩
    · right
      exact ⟨message.id, rfl, cursorAt_getLast? hlast⟩

end Pages

/-! ## Pages in turn -/

/-- What the pages of a reader have to do with the messages that their room has at the end. -/
structure PagesLaws (messages : List RoomMessage) (start : ℕ) (pages : List RoomReadSuccess) :
    Prop where
  returned : ∀ page ∈ pages, page.page.returned = page.room.messages.length
  /-- Put together, they are the messages from a position on, without a gap or a repetition. -/
  contiguous : pageMessages pages <+: messages.drop start
  /-- They are all of these when the last page says so. -/
  complete : ∀ page, pages.getLast? = some page → page.page.hasMoreAfter = false →
    pageMessages pages = messages.drop start

/-- The messages of the first page come first. -/
theorem pageMessages_cons (page : RoomReadSuccess) (pages : List RoomReadSuccess) :
    pageMessages (page :: pages) = page.room.messages ++ pageMessages pages := List.flatMap_cons

/-- A run keeps the room when each of its parts does. -/
theorem RoomOperation.keeps_append {roomId : String} {first rest : List RoomOperation}
    {snapshot : RoomSnapshot} :
    keeps roomId (first ++ rest) snapshot ↔
      keeps roomId first snapshot ∧ keeps roomId rest (run first snapshot) := by
  induction first generalizing snapshot with
  | nil => simp [keeps, run]
  | cons operation first ih =>
    rw [List.cons_append, keeps, keeps, ih, and_assoc]
    rfl

/-- A run goes on from where its first part has ended. -/
theorem RoomOperation.run_append (first rest : List RoomOperation) (snapshot : RoomSnapshot) :
    run (first ++ rest) snapshot = run rest (run first snapshot) := List.foldl_append

/-- Two rooms of a valid snapshot with one identifier are the same. -/
theorem ValidSnapshot.room_eq {snapshot : RoomSnapshot} (hs : ValidSnapshot snapshot)
    {room room' : Room} (hroom : room ∈ snapshot.rooms) (hroom' : room' ∈ snapshot.rooms)
    (hid : room'.id = room.id) : room' = room :=
  List.inj_on_of_nodup_map hs.rooms_nodup hroom' hroom hid

/-- A page for every turn. -/
theorem length_of_readPages {roomId : String} {turns : List Turn} {cursor : Option String}
    {snapshot : RoomSnapshot} {pages : List RoomReadSuccess}
    (h : readPages roomId turns cursor snapshot = some pages) : pages.length = turns.length := by
  induction turns generalizing cursor snapshot pages with
  | nil =>
    obtain rfl := Option.some.inj h
    rfl
  | cons turn turns ih =>
    rw [readPages] at h
    split at h
    · cases h
    obtain ⟨rest, hrest, rfl⟩ := Option.map_eq_some_iff.mp h
    rw [List.length_cons, List.length_cons, ih hrest]

/-- A page in front of the pages that go on from it. -/
theorem PagesLaws.cons {messages later : List RoomMessage} {start limit : ℕ}
    {result : RoomReadSuccess} {pages : List RoomReadSuccess}
    (hpage : PageLaws messages start limit result)
    (hpages : PagesLaws later (start + result.room.messages.length) pages)
    (hpre : messages <+: later) (hsame : pages = [] → later = messages) :
    PagesLaws later start (result :: pages) := by
  -- The page is in front of what comes after the start, and the others follow on it.
  have hfront : result.room.messages <+: later.drop start := by
    obtain ⟨added, rfl⟩ := hpre
    rw [hpage.taken, List.drop_append]
    exact (List.take_prefix _ _).trans (List.prefix_append _ _)
  obtain ⟨rest, hrest⟩ := hfront
  have hbehind : later.drop (start + result.room.messages.length) = rest := by
    rw [← List.drop_drop, ← hrest, List.drop_left]
  refine ⟨?_, ?_, ?_⟩
  · intro page hmem
    rcases List.mem_cons.mp hmem with rfl | hmem
    · exact hpage.returned
    · exact hpages.returned page hmem
  · have hcontiguous := hpages.contiguous
    rw [hbehind] at hcontiguous
    rw [pageMessages_cons, ← hrest]
    exact (List.prefix_append_right_inj _).mpr hcontiguous
  · intro page hlast hmore
    rw [pageMessages_cons, ← hrest]
    congr 1
    rcases hnil : pages with _ | ⟨next, others⟩
    · -- There is no other page, so nothing was added behind this one.
      obtain rfl : result = page := by simpa [hnil] using hlast
      obtain rfl := hsame hnil
      have hend : later.length ≤ start + limit := by
        rw [hpage.hasMoreAfter, decide_eq_false_iff_not] at hmore
        omega
      rw [← hbehind, hpage.taken, List.length_take, List.length_drop]
      symm
      rw [List.drop_eq_nil_iff.mpr (by omega)]
      rfl
    · rw [← hnil, ← hbehind]
      refine hpages.complete page ?_ hmore
      rw [hnil] at hlast ⊢
      simpa using hlast

section Runs

variable {snapshot : RoomSnapshot} {room room' : Room} {turns : List Turn}

/-- A room that is kept is there after the calls of a turn, with the messages that it had first. -/
theorem RoomOperation.keeps_room {snapshot : RoomSnapshot} (hs : ValidSnapshot snapshot)
    {room : Room}
    (hroom : room ∈ snapshot.rooms) {operations : List RoomOperation}
    (hkept : keeps room.id operations snapshot) {room' : Room}
    (hroom' : room' ∈ (run operations snapshot).rooms) (hid : room'.id = room.id) :
    room.messages <+: room'.messages := by
  obtain ⟨other, hother, hsame, hpre⟩ := run_grows hroom operations hkept
  rw [(run_valid hs operations).room_eq hother hroom' (hid.trans hsame.symm)]
  exact hpre

/-- The pages behind a cursor are the messages behind it. -/
theorem readPages_cursor (hs : ValidSnapshot snapshot) (hroom : room ∈ snapshot.rooms)
    (hlimits : ∀ turn ∈ turns, validLimit turn.2 = true)
    (hkept : RoomOperation.keeps room.id (turnOperations turns) snapshot)
    (hroom' : room' ∈ (RoomOperation.run (turnOperations turns) snapshot).rooms)
    (hid : room'.id = room.id) {cursor : String} {position : ℕ}
    (hat : CursorAt RoomMessage.id room.messages cursor position) :
    ∃ pages, readPages room.id turns (some cursor) snapshot = some pages ∧
      PagesLaws room'.messages position pages := by
  -- By induction on the turns; between two of them, the room may grow behind the cursor.
  induction turns generalizing snapshot room cursor position with
  | nil => exact ⟨[], rfl, by simp, List.nil_prefix, by simp⟩
  | cons turn turns ih =>
    obtain ⟨operations, limit⟩ := turn
    have hoperations : turnOperations ((operations, limit) :: turns) =
        operations ++ turnOperations turns := List.flatMap_cons
    rw [hoperations] at hkept hroom'
    rw [RoomOperation.run_append] at hroom'
    obtain ⟨hfirst, hrest⟩ := RoomOperation.keeps_append.mp hkept
    obtain ⟨now, hnow, hnowId, hgrown⟩ := RoomOperation.run_grows hroom operations hfirst
    have hs' := RoomOperation.run_valid hs operations
    rw [← hnowId] at hrest hid ⊢
    obtain ⟨result, hread, hafter, hpage⟩ := readPage_eq_some hs' hnow
      (hlimits _ List.mem_cons_self) (.cursor (hat.mono hgrown))
    obtain ⟨next, hnext, hat'⟩ : ∃ next, result.page.nextAfterMessageId = some next ∧
        CursorAt RoomMessage.id now.messages next (position + result.room.messages.length) := by
      -- An empty page has no cursor of its own, and then the next query is made with the same one.
      rcases hpage.next with ⟨hsame, hnil⟩ | hnext
      · rw [hsame, hafter, hnil]
        exact ⟨cursor, rfl, hat.mono hgrown⟩
      · exact hnext
    obtain ⟨pages, hpages, hlaws⟩ := ih hs' hnow
      (fun turn hturn => hlimits turn (List.mem_cons_of_mem _ hturn)) hrest hroom' hid hat'
    refine ⟨result :: pages, ?_, .cons hpage hlaws ?_ fun hnil => ?_⟩
    · simp only [readPages, hread, hnext, hpages, Option.map_some]
    · exact RoomOperation.keeps_room hs' hnow hrest hroom' hid
    · have hlength := length_of_readPages hpages
      rw [hnil, List.length_nil] at hlength
      obtain rfl := List.eq_nil_of_length_eq_zero hlength.symm
      rw [hs'.room_eq hnow hroom' hid]

/-- Without a cursor, the pages begin with the last page of the room. -/
theorem readPages_latest (hs : ValidSnapshot snapshot) (hroom : room ∈ snapshot.rooms)
    (hlimits : ∀ turn ∈ turns, validLimit turn.2 = true)
    (hkept : RoomOperation.keeps room.id (turnOperations turns) snapshot)
    (hroom' : room' ∈ (RoomOperation.run (turnOperations turns) snapshot).rooms)
    (hid : room'.id = room.id) :
    ∃ pages start, readPages room.id turns none snapshot = some pages ∧
      PagesLaws room'.messages start pages := by
  -- By induction on the turns. The first page starts at the latest messages, and the later ones
  -- follow its cursor, if it has one.
  induction turns generalizing snapshot room with
  | nil => exact ⟨[], 0, rfl, by simp, List.nil_prefix, by simp⟩
  | cons turn turns ih =>
    obtain ⟨operations, limit⟩ := turn
    have hoperations : turnOperations ((operations, limit) :: turns) =
        operations ++ turnOperations turns := List.flatMap_cons
    rw [hoperations] at hkept hroom'
    rw [RoomOperation.run_append] at hroom'
    obtain ⟨hfirst, hrest⟩ := RoomOperation.keeps_append.mp hkept
    obtain ⟨now, hnow, hnowId, -⟩ := RoomOperation.run_grows hroom operations hfirst
    have hs' := RoomOperation.run_valid hs operations
    rw [← hnowId] at hrest hid ⊢
    have hlimits' : ∀ turn ∈ turns, validLimit turn.2 = true :=
      fun turn hturn => hlimits turn (List.mem_cons_of_mem _ hturn)
    obtain ⟨result, hread, hafter, hpage⟩ := readPage_eq_some hs' hnow
      (hlimits _ List.mem_cons_self) .latest
    have hlast : ∀ {cursor pages}, readPages now.id turns cursor
        (RoomOperation.run operations snapshot) = some pages → pages = [] →
          room'.messages = now.messages := by
      rintro cursor pages hpages rfl
      have hlength := length_of_readPages hpages
      rw [List.length_nil] at hlength
      obtain rfl := List.eq_nil_of_length_eq_zero hlength.symm
      rw [hs'.room_eq hnow hroom' hid]
    rcases hpage.next with ⟨hsame, hnil⟩ | ⟨next, hnext, hat⟩
    · -- The page is empty, so the room is, and the next query has no cursor either.
      have hempty : now.messages = [] := by
        have hlimit := one_le_of_validLimit (hlimits _ List.mem_cons_self)
        have hlength := congrArg List.length (hpage.taken.symm.trans hnil)
        rw [List.length_take, List.length_drop, List.length_nil] at hlength
        dsimp only at hlength hlimit
        exact List.eq_nil_of_length_eq_zero (by omega)
      obtain ⟨pages, start, hpages, hlaws⟩ := ih hs' hnow hlimits' hrest hroom' hid
      refine ⟨result :: pages, start, ?_, ?_, ?_, ?_⟩
      · simp only [readPages, hread, hsame, hafter, hpages, Option.map_some]
      · intro page hmem
        rcases List.mem_cons.mp hmem with rfl | hmem
        · exact hpage.returned
        · exact hlaws.returned page hmem
      · rw [pageMessages_cons, hnil]
        exact hlaws.contiguous
      · intro page hpageLast hmore
        rw [pageMessages_cons, hnil, List.nil_append]
        rcases hpagesNil : pages with _ | ⟨other, others⟩
        · rw [hlast hpages hpagesNil, hempty, List.drop_nil]
          rfl
        · rw [← hpagesNil]
          refine hlaws.complete page ?_ hmore
          rw [hpagesNil] at hpageLast ⊢
          simpa using hpageLast
    · obtain ⟨pages, hpages, hlaws⟩ := readPages_cursor hs' hnow hlimits' hrest hroom' hid hat
      refine ⟨result :: pages, _, ?_,
        .cons hpage hlaws (RoomOperation.keeps_room hs' hnow hrest hroom' hid) (hlast hpages)⟩
      simp only [readPages, hread, hnext, hpages, Option.map_some]

/-- The first turns of a reader that nothing comes between. -/
def plainTurns (limits : ℕ → UInt8) (count : ℕ) : List Turn :=
  (List.range count).map fun n => ([], limits n)

/-- The turns without writes, one by one. -/
theorem plainTurns_succ (limits : ℕ → UInt8) (count : ℕ) :
    plainTurns limits (count + 1) = ([], limits 0) ::
      plainTurns (fun n => limits (n + 1)) count := by
  rw [plainTurns, List.range_succ_eq_map, List.map_cons, List.map_map]
  rfl

/-- The pages behind a cursor come to an end, whatever the limits, and up to there they are all the
messages behind it. -/
theorem readPages_all (hs : ValidSnapshot snapshot) (hroom : room ∈ snapshot.rooms)
    {limits : ℕ → UInt8} (hlimits : ∀ n, validLimit (limits n) = true) {cursor : String}
    {position : ℕ} (hat : CursorAt RoomMessage.id room.messages cursor position) :
    ∃ count pages last, readPages room.id (plainTurns limits (count + 1)) (some cursor) snapshot =
        some (pages ++ [last]) ∧
      pageMessages (pages ++ [last]) = room.messages.drop position ∧
      last.page.hasMoreAfter = false ∧ ∀ page ∈ pages, page.page.hasMoreAfter = true := by
  -- By induction on the number of messages behind the cursor, of which each page takes at least
  -- one.
  induction hleft : room.messages.length - position using Nat.strong_induction_on
    generalizing limits cursor position with
  | _ left ih =>
    obtain ⟨result, hread, hafter, hpage⟩ := readPage_eq_some hs hroom (hlimits 0) (.cursor hat)
    have hlimit := one_le_of_validLimit (hlimits 0)
    have hlength : result.room.messages.length =
        min (limits 0).toNat (room.messages.length - position) := by
      rw [hpage.taken, List.length_take, List.length_drop]
    by_cases hmore : position + (limits 0).toNat < room.messages.length
    · obtain ⟨next, hnext, hat'⟩ := hpage.next.resolve_left (by
        rintro ⟨-, hnil⟩
        rw [hnil, List.length_nil] at hlength
        omega)
      obtain ⟨count, pages, last, hpages, hmessages, hlast, hothers⟩ :=
        ih _ (by omega) (fun n => hlimits (n + 1)) hat' rfl
      refine ⟨count + 1, result :: pages, last, ?_, ?_, hlast, ?_⟩
      · rw [plainTurns_succ, readPages]
        simp only [RoomOperation.run, List.foldl_nil, hread, hnext, hpages, Option.map_some]
        rfl
      · rw [List.cons_append, pageMessages_cons, hmessages, ← List.drop_drop, hlength, hpage.taken,
          min_eq_left (by omega), List.take_append_drop]
      · intro page hmem
        rcases List.mem_cons.mp hmem with rfl | hmem
        · rw [hpage.hasMoreAfter, decide_eq_true_eq]
          exact hmore
        · exact hothers page hmem
    -- The page reaches the end, so it is the last.
    · refine ⟨0, [], result, ?_, ?_, ?_, by simp⟩
      · rw [plainTurns_succ, readPages]
        simp only [RoomOperation.run, List.foldl_nil, hread]
        rfl
      · rw [List.nil_append, pageMessages_cons, hpage.taken, List.take_of_length_le]
        · exact List.append_nil _
        · rw [List.length_drop]
          omega
      · rw [hpage.hasMoreAfter, decide_eq_false_iff_not]
        exact hmore

/-- Every page counts its messages. -/
theorem readRoom_returned {query : RoomReadQuery} {result : RoomReadSuccess}
    (h : readRoom snapshot query = .success result) :
    result.page.returned = result.room.messages.length := by
  have hat : ∀ room startIndex, readPageAt snapshot room query startIndex = .success result →
      result.page.returned = result.room.messages.length := by
    intro room startIndex hpage
    obtain rfl := RoomReadResult.success.inj hpage
    rw [List.length_take, List.length_drop, Nat.min_comm]
  unfold readRoom at h
  split at h
  · cases h
  · split at h
    · split at h
      · cases h
      · exact hat _ _ h
    · exact hat _ _ h

end Runs

/-- What a reader of a room gets, from a snapshot on. -/
structure RoomPaging (snapshot : RoomSnapshot) (room : Room) : Prop where
  returned : ∀ query result, readRoom snapshot query = .success result →
    result.page.returned = result.room.messages.length
  /-- Behind the cursor of any message, and whatever the limits, the pages come to an end, and up to
  there they are the messages behind it. -/
  covers : ∀ (i : ℕ) (message : RoomMessage), room.messages[i]? = some message →
    ∀ limits : ℕ → UInt8, (∀ n, validLimit (limits n) = true) →
      ∃ count pages last, readPages room.id (plainTurns limits (count + 1))
        (some message.id) snapshot =
          some (pages ++ [last]) ∧
        pageMessages (pages ++ [last]) = room.messages.drop (i + 1) ∧
        last.page.hasMoreAfter = false ∧ ∀ page ∈ pages, page.page.hasMoreAfter = true
  /-- Without a cursor, the page is the last one of the room. Unless it is empty, the pages that go
  on from it begin with the first message that is appended later. -/
  latest : ∀ limit : UInt8, validLimit limit = true →
    ∃ result, readPage room.id none limit snapshot = some result ∧
      result.room.messages = room.messages.drop (room.messages.length - limit.toNat) ∧
      result.room.messages.length = min limit.toNat room.messages.length ∧
      result.page.hasMoreBefore = decide (limit.toNat < room.messages.length) ∧
      (result.room.messages ≠ [] → ∀ turns : List Turn, (∀ turn ∈ turns, validLimit turn.2 = true) →
        RoomOperation.keeps room.id (turnOperations turns) snapshot →
        ∃ pages, ∃ room' ∈ (RoomOperation.run (turnOperations turns) snapshot).rooms,
          room'.id = room.id ∧
          readPages room.id turns result.page.nextAfterMessageId snapshot = some pages ∧
          PagesLaws room'.messages room.messages.length pages)
  /-- Whatever is called between the pages, short of the room's deletion, they are together a
  contiguous part of the messages that the room has at the end, without a repetition. -/
  grows : ∀ (turns : List Turn) (cursor : Option String),
    (∀ turn ∈ turns, validLimit turn.2 = true) →
    RoomOperation.keeps room.id (turnOperations turns) snapshot →
    (∀ id, cursor = some id → ∃ message ∈ room.messages, message.id = id) →
    ∃ pages start, ∃ room' ∈ (RoomOperation.run (turnOperations turns) snapshot).rooms,
      room'.id = room.id ∧ readPages room.id turns cursor snapshot = some pages ∧
      PagesLaws room'.messages start pages ∧ ((pageMessages pages).map (·.id)).Nodup

/-- The pages of every room of a valid snapshot are so. -/
theorem readRoom_pages {snapshot : RoomSnapshot} (hs : validateSnapshot snapshot = .ok ())
    {room : Room} (hroom : room ∈ snapshot.rooms) : RoomPaging snapshot room := by
  have hvalid := validateSnapshot_eq_ok.mp hs
  refine ⟨fun query result => readRoom_returned, fun i message hmessage limits hlimits => ?_,
    fun limit hlimit => ?_, fun turns cursor hlimits hkept hcursor => ?_⟩
  · exact readPages_all hvalid hroom hlimits ⟨i, message, rfl, hmessage, rfl⟩
  -- The latest page is the end of the list, and its cursor is at the end.
  · obtain ⟨result, hread, hafter, hpage⟩ := readPage_eq_some hvalid hroom hlimit .latest
    have hmessages : result.room.messages =
        room.messages.drop (room.messages.length - limit.toNat) := by
      rw [hpage.taken, List.take_of_length_le]
      rw [List.length_drop]
      omega
    have hlength : result.room.messages.length = min limit.toNat room.messages.length := by
      rw [hmessages, List.length_drop]
      omega
    refine ⟨result, hread, hmessages, hlength, ?_, fun hne turns hlimits hkept => ?_⟩
    · rw [hpage.hasMoreBefore, hafter, Option.isNone_none, Bool.true_and, decide_eq_decide]
      omega
    · obtain ⟨room', hroom', hid, -⟩ := RoomOperation.run_grows hroom _ hkept
      obtain ⟨next, hnext, hat⟩ := hpage.next.resolve_left fun h => hne h.2
      have hend : room.messages.length - limit.toNat + result.room.messages.length =
          room.messages.length := by omega
      rw [hend] at hat
      obtain ⟨pages, hpages, hlaws⟩ := readPages_cursor hvalid hroom hlimits hkept hroom' hid hat
      exact ⟨pages, room', hroom', hid, by rw [hnext, hpages], hlaws⟩
  · obtain ⟨room', hroom', hid, -⟩ := RoomOperation.run_grows hroom _ hkept
    obtain ⟨pages, start, hpages, hlaws⟩ : ∃ pages start,
        readPages room.id turns cursor snapshot = some pages ∧
          PagesLaws room'.messages start pages := by
      rcases cursor with _ | id
      · exact readPages_latest hvalid hroom hlimits hkept hroom' hid
      -- A cursor is the id of some message, and the pages start after that.
      · obtain ⟨message, hmem, rfl⟩ := hcursor id rfl
        obtain ⟨i, hi⟩ := List.getElem?_of_mem hmem
        obtain ⟨pages, hpages, hlaws⟩ := readPages_cursor hvalid hroom hlimits hkept hroom' hid
          ⟨i, message, rfl, hi, rfl⟩
        exact ⟨pages, i + 1, hpages, hlaws⟩
    have hdistinct : (room'.messages.map (·.id)).Nodup :=
      (RoomOperation.run_valid hvalid _).room_messages_nodup hroom'
    refine ⟨pages, start, room', hroom', hid, hpages, hlaws, hdistinct.sublist ?_⟩
    exact (hlaws.contiguous.sublist.trans (List.drop_sublist _ _)).map _

/-- The pages of a room with one message. -/
theorem readRoom_pages_sample :
    RoomPaging sampleSnapshot
      { id := "room"
        name := "Room"
        participantIds := ["owner", "codex"]
        messages := [⟨"m1", "room", "owner", ["codex"], "Hello", "2026-08-12", [], none⟩] } :=
  readRoom_pages (by decide) (by decide)

end Mio.Core
