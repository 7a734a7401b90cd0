import Mio.Desktop.RoomPersistence

/-!
# The bundled rooms and the owner

The first run of the application starts with the snapshot that is bundled with it. Every other run
passes what it loads through two migrations of `room_source.rs`: `normalizeOwnerParticipant` makes
the only human the owner, and `mergeBundledCatalog` adds the bundled participants and rooms that are
missing. A snapshot that needs neither is `Settled`, and the migrations leave it as it is. What they
return is settled, provided that it passes the check.
-/

namespace Mio.Desktop

open Library Mio.Core

/-- The id of the owner. -/
def ownerParticipantId : String := "owner"

/-- The renaming of one participant of an older version. -/
structure ParticipantIdMigration where
  previousId : String
  currentId : String
  deriving DecidableEq

/-! ## The bundled snapshot -/

/-- A participant of the bundled rooms. -/
def participant (id displayName : String) (kind : RoomParticipantKind) : RoomParticipant :=
  { id, displayName, kind }

/-- A message of the bundled rooms. -/
def message (roomId id authorId : String) (recipients : List String) (body createdAt : String) :
    RoomMessage :=
  { id, roomId, authorId, recipients, body, createdAt, artifactIds := [], provenance := none }

/-- The rooms that a device starts with. -/
def bundledSnapshot : RoomSnapshot where
  schemaVersion := protocolVersion
  generatedAt := "2026-08-12T00:00:00+09:00"
  participants :=
    [participant ownerParticipantId "Owner" .human,
      participant "claude-web" "Claude Web" .ai,
      participant "claude-code" "Claude Code" .ai,
      participant "codex" "Codex" .ai,
      participant "chatgpt" "ChatGPT" .ai,
      participant "grok" "Grok" .ai,
      participant "gemini" "Gemini" .ai,
      participant "openai-api" "OpenAI API" .ai,
      participant "generic-mcp" "Generic MCP" .ai,
      participant "other" "その他" .ai]
  rooms :=
    [{ id := "moe-dev-room"
       name := "M.I.O.開発室"
       participantIds := [ownerParticipantId, "claude-web", "codex", "gemini"]
       messages :=
        [message "moe-dev-room" "welcome-1" ownerParticipantId ["claude-web", "codex", "gemini"]
            "みんな、M.I.O.のトークルームUIを作っていきましょうー。" "2026-08-11T19:42:00+09:00",
          message "moe-dev-room" "welcome-2" "codex" [ownerParticipantId]
            "了解です。ルーム参加者と、メッセージごとの宛先を分けておきますね。"
            "2026-08-11T19:42:30+09:00",
          message "moe-dev-room" "welcome-3" "claude-web" [ownerParticipantId]
            "背景やアイコンを自分好みにできる余白も、最初から確保しておきます。"
            "2026-08-11T19:43:00+09:00"] },
      { id := "comparison-room"
        name := "回答くらべ部屋"
        participantIds := [ownerParticipantId, "chatgpt", "grok", "gemini"]
        messages :=
          [message "comparison-room" "comparison-1" ownerParticipantId ["chatgpt", "grok", "gemini"]
            "同じ質問を三人に投げて、答えを見てみたい。" "2026-08-11T19:30:00+09:00"] },
      { id := "mcp-lab"
        name := "MCP実験室"
        participantIds := [ownerParticipantId, "generic-mcp", "openai-api"]
        messages := [] }]

/-! ## The migrations -/

/-- Whether a participant is a human. -/
def isHuman (participant : RoomParticipant) : Bool := participant.kind == .human

/-- A room in which every mention of `previousId` is one of the owner. -/
def renameInRoom (previousId : String) (room : Room) : Room :=
  let rename (id : String) : String := if id == previousId then ownerParticipantId else id
  { room with
    participantIds := room.participantIds.map rename
    messages := room.messages.map fun message =>
      { message with
        authorId := rename message.authorId
        recipients := message.recipients.map rename } }

/-- Make the only human the owner. Returns the snapshot with what was changed. -/
def normalizeOwnerParticipant (snapshot : RoomSnapshot) :
    Except DesktopRoomPersistenceError
      (RoomSnapshot × Option ParticipantIdMigration × Bool) :=
  match snapshot.participants.filter isHuman with
  | [human] =>
    let upgraded := human.displayName != "Owner"
    let participants := modifyFirst isHuman
      (fun human => { human with displayName := "Owner" }) snapshot.participants
    if human.id == ownerParticipantId then .ok ({ snapshot with participants }, none, upgraded)
    else if participants.any fun participant => participant.id == ownerParticipantId then
      .error .invalidFile
    else
      .ok
        ({ snapshot with
            participants := modifyFirst isHuman
              (fun human => { human with id := ownerParticipantId }) participants
            rooms := snapshot.rooms.map (renameInRoom human.id) },
          some { previousId := human.id, currentId := ownerParticipantId }, true)
  | _ => .error .invalidFile

/-- Add the bundled participants and rooms that are missing. Returns whether there were any. -/
def mergeBundledCatalog (snapshot : RoomSnapshot) : RoomSnapshot × Bool :=
  let bundled := bundledSnapshot
  let (participants, participantsUpgraded) :=
    addMissing (·.id) bundled.participants snapshot.participants
  let (rooms, roomsUpgraded) := addMissing (·.id) bundled.rooms snapshot.rooms
  ({ snapshot with participants, rooms }, participantsUpgraded || roomsUpgraded)

/-! ## What the migrations leave -/

/-- A snapshot that needs no migration. -/
structure Settled (snapshot : RoomSnapshot) : Prop where
  /-- It passes the check. -/
  valid : ValidSnapshot snapshot
  /-- The only human is the owner. -/
  owner : snapshot.participants.filter isHuman = [participant ownerParticipantId "Owner" .human]
  /-- Every bundled participant is there. -/
  participants : ∀ p ∈ bundledSnapshot.participants, p.id ∈ snapshot.participants.map (·.id)
  /-- Every bundled room is there. -/
  rooms : ∀ room ∈ bundledSnapshot.rooms, room.id ∈ snapshot.rooms.map (·.id)

/-- The bundled rooms are valid. -/
theorem bundledSnapshot_valid : validateSnapshot bundledSnapshot = .ok () := by decide

/-- No migration changes the bundled rooms. -/
theorem bundledSnapshot_settled : Settled bundledSnapshot :=
  ⟨validateSnapshot_eq_ok.mp bundledSnapshot_valid, by decide, fun _ => List.mem_map_of_mem,
    fun _ => List.mem_map_of_mem⟩

section Migrations

variable {snapshot snapshot' : RoomSnapshot}

/-- Where the owner is the only human, there is no change. -/
theorem normalizeOwnerParticipant_of_owner
    (h : snapshot.participants.filter isHuman = [participant ownerParticipantId "Owner" .human]) :
    normalizeOwnerParticipant snapshot = .ok (snapshot, none, false) := by
  have hsame : modifyFirst isHuman (fun human => { human with displayName := "Owner" })
      snapshot.participants = snapshot.participants := by
    refine modifyFirst_eq_self fun human hmem hhuman => ?_
    have hfilter : human ∈ snapshot.participants.filter isHuman :=
      List.mem_filter.mpr ⟨hmem, hhuman⟩
    rw [h, List.mem_singleton] at hfilter
    rw [hfilter]
    rfl
  rw [normalizeOwnerParticipant, h]
  dsimp only
  rw [hsame]
  rfl

/-- The owner of a settled snapshot needs no change. -/
theorem Settled.normalize (h : Settled snapshot) :
    normalizeOwnerParticipant snapshot = .ok (snapshot, none, false) :=
  normalizeOwnerParticipant_of_owner h.owner

/-- Nothing is missing in a settled snapshot. -/
theorem Settled.merge (h : Settled snapshot) : mergeBundledCatalog snapshot =
    (snapshot, false) := by
  rw [mergeBundledCatalog, addMissing_of_all h.participants, addMissing_of_all h.rooms]
  rfl

/-- A snapshot whose owner was not changed is as before. -/
theorem normalizeOwnerParticipant_of_not_upgraded {migration : Option ParticipantIdMigration}
    (h : normalizeOwnerParticipant snapshot = .ok (snapshot', migration, false)) :
    snapshot' = snapshot ∧ migration = none := by
  unfold normalizeOwnerParticipant at h
  split at h
  · rename_i human hhumans
    dsimp only at h
    split at h
    · simp only [Except.ok.injEq, Prod.mk.injEq, bne_eq_false_iff_eq] at h
      obtain ⟨rfl, rfl, hname⟩ := h
      have hsame : modifyFirst isHuman (fun human => { human with displayName := "Owner" })
          snapshot.participants = snapshot.participants := by
        refine modifyFirst_eq_self fun other hmem hhuman => ?_
        have hfilter : other ∈ snapshot.participants.filter isHuman :=
          List.mem_filter.mpr ⟨hmem, hhuman⟩
        rw [hhumans, List.mem_singleton] at hfilter
        rw [hfilter, ← hname]
      rw [hsame]
      exact ⟨rfl, rfl⟩
    · split at h <;> simp at h
  · simp at h

/-- A snapshot in which nothing was missing is as before. -/
theorem mergeBundledCatalog_of_not_upgraded
    (h : mergeBundledCatalog snapshot = (snapshot', false)) :
    snapshot' = snapshot := by
  simp only [mergeBundledCatalog, Prod.mk.injEq, Bool.or_eq_false_iff] at h
  obtain ⟨rfl, hparticipants, hrooms⟩ := h
  rw [addMissing_of_false hparticipants, addMissing_of_false hrooms]

/-- The owner is the only human of a snapshot that was normalized. -/
theorem owner_of_normalize {migration : Option ParticipantIdMigration} {upgraded : Bool}
    (h : normalizeOwnerParticipant snapshot = .ok (snapshot', migration, upgraded)) :
    snapshot'.participants.filter isHuman = [participant ownerParticipantId "Owner" .human] := by
  unfold normalizeOwnerParticipant at h
  split at h
  · rename_i human hhumans
    have hnamed := filter_modifyFirst (p := isHuman)
      (f := fun human => { human with displayName := "Owner" }) (fun _ => rfl) hhumans
    have hkind : human.kind = .human := by
      have hmem : human ∈ snapshot.participants.filter isHuman := by simp [hhumans]
      simpa [isHuman] using (List.mem_filter.mp hmem).2
    dsimp only at h
    split at h
    · rename_i hid
      simp only [Except.ok.injEq, Prod.mk.injEq] at h
      obtain ⟨rfl, -, -⟩ := h
      have hid : human.id = ownerParticipantId := by simpa using hid
      rw [hnamed, hid, hkind]
      rfl
    · split at h
      · simp at h
      · simp only [Except.ok.injEq, Prod.mk.injEq] at h
        obtain ⟨rfl, -, -⟩ := h
        have howner := filter_modifyFirst (p := isHuman)
          (f := fun human => { human with id := ownerParticipantId }) (fun _ => rfl) hnamed
        rw [howner, hkind]
        rfl
  · simp at h

/-- What the migrations return is settled, if it passes the check. -/
theorem settled_of_migrations {loaded : RoomSnapshot} {migration : Option ParticipantIdMigration}
    {ownerUpgraded catalogUpgraded : Bool}
    (hnormalize : normalizeOwnerParticipant loaded = .ok (snapshot, migration, ownerUpgraded))
    (hmerge : mergeBundledCatalog snapshot = (snapshot', catalogUpgraded))
    (hvalid : validateSnapshot snapshot' = .ok ()) : Settled snapshot' := by
  have howner := owner_of_normalize hnormalize
  simp only [mergeBundledCatalog, Prod.mk.injEq] at hmerge
  obtain ⟨rfl, -⟩ := hmerge
  refine ⟨validateSnapshot_eq_ok.mp hvalid, ?_, key_mem_addMissing, key_mem_addMissing⟩
  obtain ⟨added, hadded, hnew⟩ :=
    addMissing_eq_append (·.id) bundledSnapshot.participants snapshot.participants
  -- The only human that could be added is the owner, who is there already.
  have hnone : added.filter isHuman = [] := by
    rw [List.filter_eq_nil_iff]
    intro p hp hhuman
    obtain ⟨hmem, hfresh⟩ := hnew p hp
    have hbundled : p ∈ bundledSnapshot.participants.filter isHuman :=
      List.mem_filter.mpr ⟨hmem, hhuman⟩
    rw [bundledSnapshot_settled.owner, List.mem_singleton] at hbundled
    have hthere : participant ownerParticipantId "Owner" .human ∈ snapshot.participants := by
      refine (List.mem_filter.mp (?_ : _ ∈ snapshot.participants.filter isHuman)).1
      simp [howner]
    exact hfresh (hbundled ▸ List.mem_map_of_mem hthere)
  rw [hadded, List.filter_append, howner, hnone, List.append_nil]

end Migrations

/-! ## What the operations of the store leave -/

/-- Every operation but the deletion of a bundled room keeps a snapshot settled. -/
theorem Settled.apply {snapshot : RoomSnapshot} (h : Settled snapshot) (operation : RoomOperation)
    (hsafe : ∀ roomId updatedAt, operation = .deleteRoom roomId updatedAt →
      roomId ∉ bundledSnapshot.rooms.map (·.id)) : Settled (operation.apply snapshot) := by
  have hstep := operation.apply_step snapshot
  have hvalid := hstep.valid h.valid
  have hrooms := h.rooms
  generalize operation.apply snapshot = snapshot' at hstep hvalid
  -- No operation changes the participants, so only the bundled rooms are left to find.
  cases hstep with
  | unchanged => exact h
  | append draft before room after hroom =>
    refine ⟨hvalid, h.owner, h.participants, ?_⟩
    simpa [hroom.rooms] using hrooms
  | create draft =>
    refine ⟨hvalid, h.owner, h.participants, fun room hmem => ?_⟩
    rw [List.map_append]
    exact List.mem_append_left _ (hrooms room hmem)
  | addParticipant roomId participantId updatedAt before room after hroom =>
    refine ⟨hvalid, h.owner, h.participants, ?_⟩
    simpa [hroom.rooms] using hrooms
  | rename roomId name updatedAt before room after hroom =>
    refine ⟨hvalid, h.owner, h.participants, ?_⟩
    simpa [hroom.rooms] using hrooms
  | removeParticipant roomId participantId updatedAt before room after hroom =>
    refine ⟨hvalid, h.owner, h.participants, ?_⟩
    simpa [hroom.rooms] using hrooms
  | delete roomId updatedAt before room after hroom =>
    refine ⟨hvalid, h.owner, h.participants, fun bundled hmem => ?_⟩
    have hne : bundled.id ≠ room.id := by
      intro hid
      refine hsafe roomId updatedAt rfl ?_
      rw [← hroom.id, ← hid]
      exact List.mem_map_of_mem hmem
    have hthere := hrooms bundled hmem
    rw [hroom.rooms, List.map_append, List.map_cons, List.mem_append, List.mem_cons] at hthere
    rw [List.map_append, List.mem_append]
    tauto

end Mio.Desktop
