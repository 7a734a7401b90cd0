import Mathlib.Data.Set.Function
import Mio.Desktop.BundledRooms

/-!
# The owner in the history of the rooms

A renaming of participants that tells those of a snapshot apart keeps the snapshot valid
(`ValidSnapshot.rename`). `normalizeOwnerParticipant` is the renaming of the only human to the
owner, and it names the owner, and does nothing else (`normalizeOwnerParticipant_renames`).
-/

namespace Mio.Desktop

open Library Mio.Core

/-! ## Renaming -/

section Rename

variable (f : String → String)

/-- The message with its participants renamed. -/
def renameMessage (message : RoomMessage) : RoomMessage :=
  { message with authorId := f message.authorId, recipients := message.recipients.map f }

/-- The room with its participants renamed. -/
def renameRoom (room : Room) : Room :=
  { room with
    participantIds := room.participantIds.map f
    messages := room.messages.map (renameMessage f) }

/-- The participant by its new identifier, and a human as the owner. -/
def renameParticipant (participant : RoomParticipant) : RoomParticipant :=
  { participant with
    id := f participant.id
    displayName := if isHuman participant then "Owner" else participant.displayName }

/-- The rooms with their participants renamed. -/
def renameSnapshot (snapshot : RoomSnapshot) : RoomSnapshot :=
  { snapshot with
    participants := snapshot.participants.map (renameParticipant f)
    rooms := snapshot.rooms.map (renameRoom f) }

variable {f} {room : Room} {message : RoomMessage} {snapshot : RoomSnapshot}

/-- Distinct participants have distinct new identifiers, which are valid. -/
structure Renames (f : String → String) (ids : List String) : Prop where
  injOn : Set.InjOn f {id | id ∈ ids}
  valid : ∀ id ∈ ids, validIdentifier (f id) = true

/-- A renaming of more participants is one of fewer. -/
theorem Renames.mono {ids fewer : List String} (h : Renames f ids) (hsub : ∀ id ∈ fewer, id ∈ ids) :
    Renames f fewer :=
  ⟨h.injOn.mono hsub, fun id hid => h.valid id (hsub id hid)⟩

/-- A renaming keeps the participants apart. -/
theorem Renames.nodup {ids fewer : List String} (h : Renames f ids) (hsub : ∀ id ∈ fewer, id ∈ ids)
    (hnodup : fewer.Nodup) : (fewer.map f).Nodup :=
  hnodup.map_on fun a ha b hb => h.injOn (hsub a ha) (hsub b hb)

/-- A renamed message is valid. -/
theorem ValidMessage.rename (hf : Renames f room.participantIds) (h : ValidMessage room message) :
    ValidMessage (renameRoom f room) (renameMessage f message) := by
  obtain ⟨-, hnodup⟩ := uniqueValidIdentifiers_iff.mp h.shape.recipients
  have hvalid : ∀ value ∈ message.recipients.map f, validIdentifier value = true := by
    intro value hvalue
    obtain ⟨recipient, hrecipient, rfl⟩ := List.mem_map.mp hvalue
    exact hf.valid recipient (h.recipients recipient hrecipient)
  have hlength : (message.recipients.map f).length = message.recipients.length := List.length_map f
  exact
    { shape :=
        { id := h.shape.id
          roomId := h.shape.roomId
          authorId := hf.valid message.authorId h.authorId
          recipients_length := hlength.trans_le h.shape.recipients_length
          recipients := uniqueValidIdentifiers_iff.mpr ⟨hvalid, hf.nodup h.recipients hnodup⟩
          body := h.shape.body
          createdAt := h.shape.createdAt
          artifactIds_length := h.shape.artifactIds_length
          artifactIds := h.shape.artifactIds }
      roomId := h.roomId
      authorId := List.mem_map_of_mem h.authorId
      recipients := by
        intro value hvalue
        obtain ⟨recipient, hrecipient, rfl⟩ := List.mem_map.mp hvalue
        exact List.mem_map_of_mem (h.recipients recipient hrecipient) }

/-- A renamed room is valid. -/
theorem ValidRoom.rename {ids : List String} (hf : Renames f ids) (h : ValidRoom ids room) :
    ValidRoom (ids.map f) (renameRoom f room) where
  id := h.id
  name := h.name
  participantIds_length := (List.length_map f).trans_le h.participantIds_length
  messages_length := (List.length_map (renameMessage f)).trans_le h.messages_length
  participantIds_nodup := hf.nodup h.participantIds h.participantIds_nodup
  participantIds := by
    intro id hid
    obtain ⟨old, hold, rfl⟩ := List.mem_map.mp hid
    exact List.mem_map_of_mem (h.participantIds old hold)
  messages := by
    intro renamed hrenamed
    obtain ⟨message, hmessage, rfl⟩ := List.mem_map.mp hrenamed
    exact ValidMessage.rename (hf.mono h.participantIds) (h.messages message hmessage)

/-- A renaming that tells the participants apart keeps a snapshot valid. -/
theorem ValidSnapshot.rename (hf : Renames f (snapshot.participants.map (·.id)))
    (h : ValidSnapshot snapshot) : ValidSnapshot (renameSnapshot f snapshot) := by
  -- Ids are mapped by the renaming, and what has ids of other kinds keeps them.
  have hids : (renameSnapshot f snapshot).participants.map (·.id) =
      (snapshot.participants.map (·.id)).map f := by
    show (snapshot.participants.map (renameParticipant f)).map (·.id) = _
    rw [List.map_map, List.map_map]
    rfl
  have hmessages : (renameSnapshot f snapshot).messages.map (·.id) =
    snapshot.messages.map (·.id) := by
    show ((snapshot.rooms.map (renameRoom f)).flatMap (·.messages)).map (·.id) = _
    rw [List.flatMap_map, RoomSnapshot.messages, List.map_flatMap, List.map_flatMap]
    refine List.flatMap_congr fun room _ => ?_
    show (room.messages.map (renameMessage f)).map (·.id) = _
    rw [List.map_map]
    rfl
  have hrooms : (renameSnapshot f snapshot).rooms.map (·.id) = snapshot.rooms.map (·.id) := by
    show (snapshot.rooms.map (renameRoom f)).map (·.id) = _
    rw [List.map_map]
    rfl
  refine
    { schemaVersion := h.schemaVersion
      generatedAt := h.generatedAt
      participants_length := (List.length_map _).trans_le h.participants_length
      rooms_length := (List.length_map _).trans_le h.rooms_length
      participants := ?_
      participants_nodup := ?_
      rooms := ?_
      rooms_nodup := hrooms ▸ h.rooms_nodup
      messages_nodup := hmessages ▸ h.messages_nodup }
  · intro renamed hrenamed
    obtain ⟨participant, hparticipant, rfl⟩ := List.mem_map.mp hrenamed
    have hvalid := h.participants participant hparticipant
    rw [validParticipant, Bool.and_eq_true] at hvalid ⊢
    refine ⟨hf.valid participant.id (List.mem_map_of_mem hparticipant), ?_⟩
    show validText (if isHuman participant then "Owner" else participant.displayName) _ = true
    split
    · decide
    · exact hvalid.2
  · rw [hids]
    exact hf.nodup (fun id hid => hid) h.participants_nodup
  · intro renamed hrenamed
    obtain ⟨room, hroom, rfl⟩ := List.mem_map.mp hrenamed
    rw [hids]
    exact ValidRoom.rename hf (h.rooms room hroom)

end Rename

/-! ## The owner -/

section Owner

/-- The human becomes the owner, and everyone else stays. -/
def renameOwner (previousId id : String) : String :=
    if id == previousId then ownerParticipantId else id

variable {snapshot : RoomSnapshot} {human : RoomParticipant}

/-- The change of the only element that a test finds is one of every element that it finds. -/
theorem modifyFirst_eq_map {α : Type} {p : α → Bool} {f : α → α} {l : List α} {a : α}
    (h : l.filter p = [a]) : modifyFirst p f l = l.map fun b => if p b then f b else b := by
  induction l with
  | nil => rfl
  | cons b l ih =>
    rw [modifyFirst, List.map_cons]
    by_cases hb : p b = true
    · rw [List.filter_cons_of_pos hb] at h
      obtain ⟨-, hrest⟩ := List.cons.inj h
      have hsame : (l.map fun b => if p b then f b else b) = l := by
        refine (List.map_congr_left fun c hc => ?_).trans (List.map_id l)
        rw [if_neg (List.filter_eq_nil_iff.mp hrest c hc)]
        rfl
      rw [if_pos hb, if_pos hb, hsame]
    · rw [List.filter_cons_of_neg hb] at h
      rw [if_neg hb, if_neg hb, ih h]

/-- The only human is a participant. -/
theorem mem_of_only (h : snapshot.participants.filter isHuman = [human]) :
    human ∈ snapshot.participants ∧ isHuman human = true := by
  have hmem : human ∈ snapshot.participants.filter isHuman := by
    rw [h]
    exact List.mem_singleton_self human
  exact List.mem_filter.mp hmem

/-- No other participant has the identifier of the only human. -/
theorem eq_of_only (h : snapshot.participants.filter isHuman = [human])
    (hnodup : (snapshot.participants.map (·.id)).Nodup) {participant : RoomParticipant}
    (hmem : participant ∈ snapshot.participants) (hid : participant.id = human.id) :
    participant = human :=
  List.inj_on_of_nodup_map hnodup hmem (mem_of_only h).1 hid

/-- The renaming leaves every participant but the human, whom it makes the owner. -/
theorem renameParticipant_eq (h : snapshot.participants.filter isHuman = [human])
    (hnodup : (snapshot.participants.map (·.id)).Nodup) {participant : RoomParticipant}
    (hmem : participant ∈ snapshot.participants) :
    renameParticipant (renameOwner human.id) participant =
      if isHuman participant then
        { participant with id := ownerParticipantId, displayName := "Owner" }
      else participant := by
  by_cases hhuman : isHuman participant = true
  · have hfilter : participant ∈ snapshot.participants.filter isHuman :=
      List.mem_filter.mpr ⟨hmem, hhuman⟩
    rw [h, List.mem_singleton] at hfilter
    subst hfilter
    simp [renameParticipant, renameOwner, hhuman]
  · have hid : participant.id ≠ human.id := by
      intro hid
      rw [eq_of_only h hnodup hmem hid] at hhuman
      exact hhuman (mem_of_only h).2
    simp [renameParticipant, renameOwner, hhuman, hid]

/-- The identifier of the owner is free, or it is that of the human. -/
def OwnerFree (snapshot : RoomSnapshot) (human : RoomParticipant) : Prop :=
  ∀ participant ∈ snapshot.participants, participant.id = ownerParticipantId → participant = human

/-- The owner's identifier tells the human from everyone else. -/
theorem renameOwner_renames (hvalid : ValidSnapshot snapshot) (hfree : OwnerFree snapshot human) :
    Renames (renameOwner human.id) (snapshot.participants.map (·.id)) := by
  have hother : ∀ id ∈ snapshot.participants.map (·.id), id ≠ human.id →
    id ≠ ownerParticipantId := by
    intro id hid hne howner
    obtain ⟨participant, hmem, rfl⟩ := List.mem_map.mp hid
    exact hne (congrArg (·.id) (hfree participant hmem howner))
  constructor
  · intro a ha b hb heq
    unfold renameOwner at heq
    by_cases haHuman : a = human.id
    · by_cases hbHuman : b = human.id
      · rw [haHuman, hbHuman]
      · simp only [haHuman, hbHuman, beq_self_eq_true, if_true, beq_iff_eq, if_false] at heq
        exact absurd heq.symm (hother b hb hbHuman)
    · by_cases hbHuman : b = human.id
      · simp only [haHuman, hbHuman, beq_self_eq_true, if_true, beq_iff_eq, if_false] at heq
        exact absurd heq (hother a ha haHuman)
      · simpa only [haHuman, hbHuman, beq_iff_eq, if_false] using heq
  · intro id hid
    unfold renameOwner
    split
    · decide
    · obtain ⟨participant, hmem, rfl⟩ := List.mem_map.mp hid
      have hparticipant := hvalid.participants participant hmem
      rw [validParticipant, Bool.and_eq_true] at hparticipant
      exact hparticipant.1

/-- Renaming nobody changes nothing. -/
theorem renameRoom_id {f : String → String} (hf : ∀ id, f id = id) (room : Room) :
    renameRoom f room = room := by
  have hids : ∀ ids : List String, ids.map f = ids := fun ids =>
    (List.map_congr_left fun id _ => hf id).trans (List.map_id ids)
  have hmessage : ∀ message, renameMessage f message = message := by
    intro message
    rw [renameMessage, hf, hids]
  have hmessages : room.messages.map (renameMessage f) = room.messages :=
    (List.map_congr_left fun message _ => hmessage message).trans (List.map_id _)
  rw [renameRoom, hids, hmessages]

/-- A name does not matter to whether the owner's identifier is taken. -/
theorem any_named (participants : List RoomParticipant) :
    ((modifyFirst isHuman (fun human => { human with displayName := "Owner" }) participants).any
      fun participant => participant.id == ownerParticipantId) =
    participants.any fun participant => participant.id == ownerParticipantId := by
  have hany : ∀ l : List RoomParticipant,
    (l.any fun participant => participant.id == ownerParticipantId) =
      (l.map (·.id)).any (· == ownerParticipantId) := by
    intro l
    rw [List.any_map]
    rfl
  have hids : (modifyFirst isHuman (fun human => { human with displayName := "Owner" })
      participants).map (·.id) = participants.map (·.id) := by
    refine map_modifyFirst (fun human => ?_) participants
    rfl
  rw [hany, hany, hids]

/-- The migration succeeds where there is one human, and the owner's identifier is free or is his.
-/
theorem normalizeOwnerParticipant_eq (hvalid : ValidSnapshot snapshot)
    (h : snapshot.participants.filter isHuman = [human]) (hfree : OwnerFree snapshot human) :
    normalizeOwnerParticipant snapshot =
      .ok (renameSnapshot (renameOwner human.id) snapshot,
        if human.id = ownerParticipantId then none else some ⟨human.id, ownerParticipantId⟩,
        !(human.id == ownerParticipantId && human.displayName == "Owner")) := by
  have hparticipants : snapshot.participants.map (renameParticipant (renameOwner human.id)) =
      snapshot.participants.map fun participant =>
        if isHuman participant then
          { participant with id := ownerParticipantId, displayName := "Owner" }
        else participant :=
    List.map_congr_left fun _ hmem => renameParticipant_eq h hvalid.participants_nodup hmem
  have hnamed := filter_modifyFirst (p := isHuman)
    (f := fun human => { human with displayName := "Owner" }) (fun _ => rfl) h
  rw [normalizeOwnerParticipant, h, renameSnapshot, hparticipants]
  dsimp only
  -- The source renames the ids only if the human has another id than the owner.
  by_cases hid : human.id = ownerParticipantId
  · have hrename : ∀ id, renameOwner human.id id = id := by
      intro id
      rw [renameOwner]
      split
      · next heq => rw [← hid, beq_iff_eq.mp heq]
      · rfl
    have hrooms : snapshot.rooms.map (renameRoom (renameOwner human.id)) = snapshot.rooms :=
      (List.map_congr_left fun room _ => renameRoom_id hrename room).trans (List.map_id _)
    have hname : modifyFirst isHuman (fun human => { human with displayName := "Owner" })
        snapshot.participants = snapshot.participants.map fun participant =>
          if isHuman participant then
            { participant with id := ownerParticipantId, displayName := "Owner" }
          else participant := by
      rw [modifyFirst_eq_map h]
      refine List.map_congr_left fun participant hmem => ?_
      by_cases hhuman : isHuman participant = true
      · have hfilter : participant ∈ snapshot.participants.filter isHuman :=
          List.mem_filter.mpr ⟨hmem, hhuman⟩
        rw [h, List.mem_singleton] at hfilter
        rw [if_pos hhuman, if_pos hhuman, hfilter, ← hid]
      · rw [if_neg hhuman, if_neg hhuman]
    rw [if_pos (beq_iff_eq.mpr hid), hrooms, hname]
    simp [hid, bne]
  -- Nobody else has the owner's id, so it is free for the human.
  · have htaken : ((modifyFirst isHuman (fun human => { human with displayName := "Owner" })
        snapshot.participants).any fun participant =>
          participant.id == ownerParticipantId) = false := by
      rw [any_named, List.any_eq_false]
      intro participant hmem howner
      have howner := beq_iff_eq.mp howner
      exact hid ((congrArg (·.id) (hfree participant hmem howner)).symm.trans howner)
    have hboth : modifyFirst isHuman (fun human => { human with id := ownerParticipantId })
        (modifyFirst isHuman (fun human => { human with displayName := "Owner" })
          snapshot.participants) = snapshot.participants.map fun participant =>
          if isHuman participant then
            { participant with id := ownerParticipantId, displayName := "Owner" }
          else participant := by
      rw [modifyFirst_eq_map hnamed, modifyFirst_eq_map h, List.map_map]
      refine List.map_congr_left fun participant _ => ?_
      by_cases hhuman : isHuman participant = true
      · have hstill : isHuman { participant with displayName := "Owner" } = true := hhuman
        simp [hhuman, hstill]
      · simp [hhuman]
    rw [if_neg (by rwa [beq_iff_eq]), htaken, if_neg Bool.false_ne_true, hboth]
    have hrooms : snapshot.rooms.map (renameInRoom human.id) =
        snapshot.rooms.map (renameRoom (renameOwner human.id)) := rfl
    rw [hrooms, if_neg hid, beq_false_of_ne hid]
    rfl

/-- The migration fails where there is not one human, or where the owner is someone else. -/
theorem owner_of_normalized {normalized : RoomSnapshot} {migration : Option ParticipantIdMigration}
    {upgraded : Bool}
    (h : normalizeOwnerParticipant snapshot = .ok (normalized, migration, upgraded)) :
    ∃ human, snapshot.participants.filter isHuman = [human] ∧
      (human.id = ownerParticipantId ∨
        ∀ participant ∈ snapshot.participants, participant.id ≠ ownerParticipantId) := by
  unfold normalizeOwnerParticipant at h
  split at h
  · next human hhuman =>
    refine ⟨human, hhuman, ?_⟩
    dsimp only at h
    split at h
    · next hid => exact .inl (beq_iff_eq.mp hid)
    · split at h
      · cases h
      · next hfree =>
        refine .inr fun participant hmem howner => hfree ?_
        rw [any_named, List.any_eq_true]
        exact ⟨participant, hmem, beq_iff_eq.mpr howner⟩
  · cases h

end Owner

/-- On a valid snapshot the migration succeeds exactly where there is one human and no one else has
the owner's identifier. It renames him, tells the participants of each room apart, and gives him his
name. The result is valid, and needs no migration. -/
theorem normalizeOwnerParticipant_renames {snapshot : RoomSnapshot}
    (hvalid : validateSnapshot snapshot = .ok ()) :
    ((∃ result, normalizeOwnerParticipant snapshot = .ok result) ↔
        ∃ human, snapshot.participants.filter isHuman = [human] ∧ OwnerFree snapshot human) ∧
      ∀ normalized migration upgraded,
        normalizeOwnerParticipant snapshot = .ok (normalized, migration, upgraded) →
        ∃ human, snapshot.participants.filter isHuman = [human] ∧
          normalized = renameSnapshot (renameOwner human.id) snapshot ∧
          (∀ room ∈ snapshot.rooms,
            Set.InjOn (renameOwner human.id) {id | id ∈ room.participantIds}) ∧
          (∀ participant ∈ snapshot.participants, participant ≠ human →
            renameParticipant (renameOwner human.id) participant = participant) ∧
          validateSnapshot normalized = .ok () ∧
          normalizeOwnerParticipant normalized = .ok (normalized, none, false) := by
  have hvalid := validateSnapshot_eq_ok.mp hvalid
  -- Where the human has the owner's id, nobody else has it; otherwise it must be free.
  have howner : ∀ {result}, normalizeOwnerParticipant snapshot = .ok result →
      ∃ human, snapshot.participants.filter isHuman = [human] ∧ OwnerFree snapshot human := by
    intro result h
    obtain ⟨human, hhuman, hid | hfree⟩ := owner_of_normalized h
    · refine ⟨human, hhuman, fun participant hmem hparticipant => ?_⟩
      exact eq_of_only hhuman hvalid.participants_nodup hmem (hparticipant.trans hid.symm)
    · exact ⟨human, hhuman, fun participant hmem hparticipant => absurd hparticipant (hfree _ hmem)⟩
  refine ⟨⟨fun ⟨result, h⟩ => howner h, fun ⟨human, hhuman, hfree⟩ => ?_⟩, ?_⟩
  · exact ⟨_, normalizeOwnerParticipant_eq hvalid hhuman hfree⟩
  · intro normalized migration upgraded h
    obtain ⟨human, hhuman, hfree⟩ := howner h
    have honly := owner_of_normalize h
    rw [normalizeOwnerParticipant_eq hvalid hhuman hfree] at h
    obtain ⟨rfl, -⟩ := Prod.mk.inj (Except.ok.inj h)
    have hrenames := renameOwner_renames hvalid hfree
    have hrenamed : ValidSnapshot (renameSnapshot (renameOwner human.id) snapshot) :=
      ValidSnapshot.rename hrenames hvalid
    refine ⟨human, hhuman, rfl, ?_, ?_, validateSnapshot_eq_ok.mpr hrenamed, ?_⟩
    · intro room hroom
      exact (hrenames.mono (hvalid.rooms room hroom).participantIds).injOn
    · intro participant hmem hne
      rw [renameParticipant_eq hhuman hvalid.participants_nodup hmem, if_neg]
      intro hisHuman
      have hfilter : participant ∈ snapshot.participants.filter isHuman :=
        List.mem_filter.mpr ⟨hmem, hisHuman⟩
      rw [hhuman, List.mem_singleton] at hfilter
      exact hne hfilter
    · exact normalizeOwnerParticipant_of_owner honly

/-- The bundled room of a human with an identifier and a name of his own. -/
def aliasSnapshot : RoomSnapshot where
  schemaVersion := protocolVersion
  generatedAt := "2026-08-12T00:00:00+09:00"
  participants :=
    [participant "local-user" "Personal alias" .human, participant "codex" "Codex" .ai]
  rooms :=
    [{ id := "moe-dev-room"
       name := "M.I.O."
       participantIds := ["local-user", "codex"]
       messages :=
        [message "moe-dev-room" "welcome-2" "codex"
          ["local-user"] "Hello." "2026-08-11T19:42:30+09:00"] }]

/-- The normalization of the rooms with the older owner succeeds. -/
theorem normalizeOwnerParticipant_renames_alias :
    ∃ result, normalizeOwnerParticipant aliasSnapshot = .ok result := by
  have hfree : ∀ p ∈ aliasSnapshot.participants, p.id = ownerParticipantId →
      p = participant "local-user" "Personal alias" .human := by
    decide
  exact (normalizeOwnerParticipant_renames (by decide)).1.mpr
    ⟨participant "local-user" "Personal alias" .human, rfl, hfree⟩

end Mio.Desktop
