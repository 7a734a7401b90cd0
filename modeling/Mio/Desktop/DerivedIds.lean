import Mio.Core.ConductorPlans
import Mio.Desktop.AdapterReplies

/-!
# Identifiers that are derived from others

The replies of the participants and the messages and dispatches of a conductor have identifiers that
are hashed from those of other messages. The bytes that are hashed tell what they were made of
(`DerivedId.hashed_inj`), and the text in front of a hash tells the kind and the recipient. So two
identifiers are the same only where FNV-1a collides.
-/

namespace Mio.Desktop.DerivedIds

open Library Mio.Core Mio.Core.Conductor
open AiDispatch (fnv replyMessageId aiParticipantIds)

/-- What an identifier is derived from, by its kind. -/
inductive DerivedId where
  | reply (sourceMessageId recipientId : String)
  | operation (sourceMessageId conductorId : String)
  | finalMessage (operationId : String)
  | delegationMessage (operationId targetParticipantId : String) (ordinal : ℕ)
  | delegationDispatch (operationId targetParticipantId : String) (ordinal : ℕ)
  deriving DecidableEq

/-- The kinds of identifiers that are derived. -/
inductive IdKind where
  | reply (recipientId : String)
  | operation
  | finalMessage
  | delegationMessage
  | delegationDispatch
  deriving DecidableEq

namespace DerivedId

/-- The kind of an identifier. That of a reply has its recipient. -/
def kind : DerivedId → IdKind
  | .reply _ recipientId => .reply recipientId
  | .operation _ _ => .operation
  | .finalMessage _ => .finalMessage
  | .delegationMessage _ _ _ => .delegationMessage
  | .delegationDispatch _ _ _ => .delegationDispatch

/-- How a derived identifier is written. -/
def text : DerivedId → String
  | .reply sourceMessageId recipientId => replyMessageId sourceMessageId recipientId
  | .operation sourceMessageId conductorId =>
    stableIdentifier "conductor-operation-v1" [sourceMessageId, conductorId]
  | .finalMessage operationId => stableIdentifier "conductor-final-v1" [operationId]
  | .delegationMessage operationId targetParticipantId ordinal =>
    stableIdentifier "conductor-delegation-v1" [operationId, targetParticipantId, toString ordinal]
  | .delegationDispatch operationId targetParticipantId ordinal =>
    stableIdentifier "conductor-dispatch-v1" [operationId, targetParticipantId, toString ordinal]

/-- The bytes that are hashed. -/
def hashed : DerivedId → Bytes
  | .reply sourceMessageId recipientId => asBytes sourceMessageId ++ 0 :: asBytes recipientId
  | .operation sourceMessageId conductorId => hashedBytes [sourceMessageId, conductorId]
  | .finalMessage operationId => hashedBytes [operationId]
  | .delegationMessage operationId targetParticipantId ordinal
  | .delegationDispatch operationId targetParticipantId ordinal =>
    hashedBytes [operationId, targetParticipantId, toString ordinal]

/-- The identifiers that it is derived from are valid. -/
def Valid : DerivedId → Prop
  | .reply sourceMessageId recipientId =>
    Core.validIdentifier sourceMessageId = true ∧ Core.validIdentifier recipientId = true
  | .operation sourceMessageId conductorId =>
    Core.validIdentifier sourceMessageId = true ∧ Core.validIdentifier conductorId = true
  | .finalMessage operationId => Core.validIdentifier operationId = true
  | .delegationMessage operationId targetParticipantId ordinal
  | .delegationDispatch operationId targetParticipantId ordinal =>
    Core.validIdentifier operationId = true ∧ Core.validIdentifier targetParticipantId = true ∧
      ordinal < maximumWorkers

end DerivedId

/-- Two byte strings that FNV-1a does not tell apart. -/
def Collides (bytes bytes' : Bytes) : Prop := bytes ≠ bytes' ∧ fnv bytes = fnv bytes'

/-! ## The text in front of the hash -/

/-- The identifier of a reply names its recipient before the hash. -/
theorem replyMessageId_eq (sourceMessageId recipientId : String) :
    replyMessageId sourceMessageId recipientId = "reply-" ++ (recipientId ++ ("-" ++
      lowerHex16 (fnv (asBytes sourceMessageId ++ 0 :: asBytes recipientId)))) := by
  have hid : replyMessageId sourceMessageId recipientId = "reply-" ++ recipientId ++ "-" ++
      lowerHex16 (fnv (asBytes sourceMessageId ++ 0 :: asBytes recipientId)) := rfl
  rw [hid, String.append_assoc, String.append_assoc]

/-- The hash has one length, so that what is in front of it has the rest. -/
theorem replyMessageId_inj {sourceMessageId sourceMessageId' recipientId recipientId' : String}
    (h : replyMessageId sourceMessageId recipientId =
      replyMessageId sourceMessageId' recipientId') :
    recipientId = recipientId' ∧
      fnv (asBytes sourceMessageId ++ 0 :: asBytes recipientId) =
        fnv (asBytes sourceMessageId' ++ 0 :: asBytes recipientId') := by
  rw [replyMessageId_eq, replyMessageId_eq] at h
  obtain ⟨-, h⟩ := string_append_inj h rfl
  have hsizes := congrArg String.utf8ByteSize h
  simp only [String.utf8ByteSize_append, utf8ByteSize_lowerHex16] at hsizes
  obtain ⟨hrecipient, h⟩ := string_append_inj h (by omega)
  obtain ⟨-, hhash⟩ := string_append_inj h rfl
  exact ⟨hrecipient, lowerHex16_inj hhash⟩

/-- What the identifiers of a conductor begin with, past the word. -/
def IdKind.rest : IdKind → String
  | .reply _ => ""
  | .operation => "operation-v1"
  | .finalMessage => "final-v1"
  | .delegationMessage => "delegation-v1"
  | .delegationDispatch => "dispatch-v1"

/-- Everything but a reply is an identifier of a conductor. -/
theorem DerivedId.text_eq (id : DerivedId) :
    (∃ sourceMessageId recipientId, id = .reply sourceMessageId recipientId) ∨
      (∀ recipientId, id.kind ≠ .reply recipientId) ∧ ∃ parts,
        id.text = stableIdentifier ("conductor-" ++ id.kind.rest) parts ∧
          id.hashed = hashedBytes parts := by
  have hprefixes : "conductor-" ++ "operation-v1" = "conductor-operation-v1" ∧
      "conductor-" ++ "final-v1" = "conductor-final-v1" ∧
      "conductor-" ++ "delegation-v1" = "conductor-delegation-v1" ∧
      "conductor-" ++ "dispatch-v1" = "conductor-dispatch-v1" := by decide
  obtain ⟨hoperation, hfinal, hdelegation, hdispatch⟩ := hprefixes
  cases id with
  | reply sourceMessageId recipientId => exact .inl ⟨_, _, rfl⟩
  | operation sourceMessageId conductorId =>
    exact .inr ⟨by simp [kind], _, by rw [kind, IdKind.rest, hoperation]; rfl, rfl⟩
  | finalMessage operationId =>
    exact .inr ⟨by simp [kind], _, by rw [kind, IdKind.rest, hfinal]; rfl, rfl⟩
  | delegationMessage operationId targetParticipantId ordinal =>
    exact .inr ⟨by simp [kind], _, by rw [kind, IdKind.rest, hdelegation]; rfl, rfl⟩
  | delegationDispatch operationId targetParticipantId ordinal =>
    exact .inr ⟨by simp [kind], _, by rw [kind, IdKind.rest, hdispatch]; rfl, rfl⟩

/-- A reply is not taken for something of a conductor. -/
theorem reply_ne_stableIdentifier (sourceMessageId recipientId rest : String)
    (parts : List String) :
    replyMessageId sourceMessageId recipientId ≠ stableIdentifier ("conductor-" ++ rest) parts := by
  intro h
  rw [replyMessageId_eq, stableIdentifier_eq, String.append_assoc] at h
  have hfirst : "reply-" = "r" ++ "eply-" ∧ "conductor-" = "c" ++ "onductor-" := by decide
  rw [hfirst.1, hfirst.2, String.append_assoc, String.append_assoc] at h
  obtain ⟨hletter, -⟩ := string_append_inj h rfl
  exact absurd hletter (by decide)

/-- The text of an identifier tells its kind. Those of a conductor have different lengths. -/
theorem DerivedId.kind_of_text {id id' : DerivedId}
    (h : id.text = id'.text) : id.kind = id'.kind := by
  have hlengths : ∀ kind kind' : IdKind, (∀ recipientId, kind ≠ .reply recipientId) →
      (∀ recipientId, kind' ≠ .reply recipientId) →
      kind.rest.utf8ByteSize = kind'.rest.utf8ByteSize → kind = kind' := by
    intro kind kind' hne hne' hsize
    cases kind <;> cases kind' <;> first
      | rfl
      | exact absurd rfl (hne _)
      | exact absurd rfl (hne' _)
      | exact absurd hsize (by decide)
  rcases id.text_eq with ⟨sourceMessageId, recipientId, rfl⟩ | ⟨hne, parts, htext, -⟩
  · rcases id'.text_eq with ⟨sourceMessageId', recipientId', rfl⟩ | ⟨-, parts', htext', -⟩
    · exact congrArg IdKind.reply (replyMessageId_inj h).1
    · exact absurd (h.trans htext') (reply_ne_stableIdentifier _ _ _ _)
  · rcases id'.text_eq with ⟨sourceMessageId', recipientId', rfl⟩ | ⟨hne', parts', htext', -⟩
    · exact absurd (h.symm.trans htext) (reply_ne_stableIdentifier _ _ _ _)
    · have hsizes := congrArg String.utf8ByteSize (htext.symm.trans (h.trans htext'))
      rw [utf8ByteSize_stableIdentifier, utf8ByteSize_stableIdentifier, String.utf8ByteSize_append,
        String.utf8ByteSize_append] at hsizes
      exact hlengths _ _ hne hne' (by omega)

/-- Identifiers of one kind that are the same have the same hash. -/
theorem DerivedId.fnv_of_text {id id' : DerivedId} (h : id.text = id'.text) :
    fnv id.hashed = fnv id'.hashed := by
  have hkind := kind_of_text h
  rcases id.text_eq with ⟨sourceMessageId, recipientId, rfl⟩ | ⟨hne, parts, htext, hhashed⟩
  · cases id' with
    | reply sourceMessageId' recipientId' => exact (replyMessageId_inj h).2
    | _ => cases hkind
  · rcases id'.text_eq with ⟨sourceMessageId', recipientId', rfl⟩ | ⟨-, parts', htext', hhashed'⟩
    · exact absurd hkind (hne _)
    · rw [htext, htext', hkind] at h
      rw [hhashed, hhashed']
      exact congrArg Prod.fst (stableIdentifier_eq_iff.mp h)

/-! ## The bytes that are hashed -/

/-- No byte of a valid identifier is zero, so that the first zero is the separator. -/
theorem zero_notMem_asBytes {value : String} (h : Core.validIdentifier value = true) :
    (0 : UInt8) ∉ asBytes value := by
  obtain ⟨-, -, hbytes⟩ := boundedBytes_iff.mp h
  intro hmem
  obtain ⟨index, hindex⟩ := List.mem_iff_getElem?.mp hmem
  have hzero := hbytes 0 index hindex
  rw [show isAsciiAlphanumeric 0 = false from rfl] at hzero
  simp at hzero

/-- A valid identifier is short enough for its length to be hashed. -/
theorem utf8ByteSize_lt_of_validIdentifier {value : String}
    (h : Core.validIdentifier value = true) :
    value.utf8ByteSize < 2 ^ 64 := by
  have hsize : value.utf8ByteSize ≤ 128 := (boundedBytes_iff.mp h).2.1
  omega

/-- The bytes that are hashed, with the kind, tell what an identifier is derived from. -/
theorem DerivedId.hashed_inj {id id' : DerivedId} (hvalid : id.Valid) (hvalid' : id'.Valid)
    (hkind : id.kind = id'.kind) (h : id.hashed = id'.hashed) : id = id' := by
  -- The hashed parts are shorter than 2^64 bytes, so their lengths are written in full.
  have hordinal : ∀ ordinal < maximumWorkers, (toString ordinal).utf8ByteSize < 2 ^ 64 := by decide
  have hdelegation : ∀ {operationId target operationId' target' : String} {ordinal ordinal' : ℕ},
      (Core.validIdentifier operationId = true ∧ Core.validIdentifier target = true ∧
        ordinal < maximumWorkers) →
      (Core.validIdentifier operationId' = true ∧ Core.validIdentifier target' = true ∧
        ordinal' < maximumWorkers) →
      hashedBytes [operationId, target, toString ordinal] =
        hashedBytes [operationId', target', toString ordinal'] →
      operationId = operationId' ∧ target = target' ∧ ordinal = ordinal' := by
    rintro operationId target operationId' target' ordinal ordinal' ⟨hop, htarget, hlt⟩
      ⟨hop', htarget', hlt'⟩ heq
    have hparts := hashedBytes_inj
      (by simp only [List.forall_mem_cons]
          exact ⟨utf8ByteSize_lt_of_validIdentifier hop, utf8ByteSize_lt_of_validIdentifier htarget,
            hordinal _ hlt, by simp⟩)
      (by simp only [List.forall_mem_cons]
          exact ⟨utf8ByteSize_lt_of_validIdentifier hop',
            utf8ByteSize_lt_of_validIdentifier htarget',
            hordinal _ hlt', by simp⟩) heq
    simp only [List.cons.injEq, and_true] at hparts
    exact ⟨hparts.1, hparts.2.1, Nat.repr_injective hparts.2.2⟩
  -- Ids of two kinds are out, as the kinds are the same.
  cases id <;> cases id' <;> first | cases hkind; done | skip
  case reply.reply sourceMessageId recipientId sourceMessageId' recipientId' =>
    -- A reply is hashed as its two ids with a zero byte between them, which is in neither.
    obtain ⟨hbefore, -, hafter⟩ := (List.append_cons_inj_of_notMem (zero_notMem_asBytes hvalid.1)
      (zero_notMem_asBytes hvalid.2)).mp h
    rw [asBytes_inj hbefore, asBytes_inj hafter]
  case operation.operation sourceMessageId conductorId sourceMessageId' conductorId' =>
    have hparts := hashedBytes_inj
      (by simp only [List.forall_mem_cons]
          exact ⟨utf8ByteSize_lt_of_validIdentifier hvalid.1,
            utf8ByteSize_lt_of_validIdentifier hvalid.2, by simp⟩)
      (by simp only [List.forall_mem_cons]
          exact ⟨utf8ByteSize_lt_of_validIdentifier hvalid'.1,
            utf8ByteSize_lt_of_validIdentifier hvalid'.2, by simp⟩) h
    simp only [List.cons.injEq, and_true] at hparts
    rw [hparts.1, hparts.2]
  case finalMessage.finalMessage operationId operationId' =>
    have hparts := hashedBytes_inj
      (by simpa using utf8ByteSize_lt_of_validIdentifier hvalid)
      (by simpa using utf8ByteSize_lt_of_validIdentifier hvalid') h
    rw [List.singleton_inj.mp hparts]
  case delegationMessage.delegationMessage =>
    obtain ⟨rfl, rfl, rfl⟩ := hdelegation hvalid hvalid' h
    rfl
  case delegationDispatch.delegationDispatch =>
    obtain ⟨rfl, rfl, rfl⟩ := hdelegation hvalid hvalid' h
    rfl

/-! ## What the conductor derives -/

/-- The identifiers of an operation, and of its delegations, are derived from valid ones, and valid.
-/
theorem derive_spec {sourceMessageId conductorId : String} {ids : ConductorOperationIds}
    (h : ConductorOperationIds.derive sourceMessageId conductorId = .ok ids) :
    (DerivedId.operation sourceMessageId conductorId).Valid ∧
      ids.operationId = (DerivedId.operation sourceMessageId conductorId).text ∧
      Core.validIdentifier ids.operationId = true ∧
      ids.finalMessageId = (DerivedId.finalMessage ids.operationId).text ∧
      Core.validIdentifier ids.finalMessageId = true := by
  rw [ConductorOperationIds.derive] at h
  split at h
  · cases h
  rename_i hvalid
  simp only [Bool.or_eq_true, not_or, Bool.not_eq_true, Bool.not_eq_false'] at hvalid
  obtain rfl := Except.ok.inj h
  exact ⟨hvalid, rfl, validIdentifier_stableIdentifier _ (by decide) (by decide), rfl,
    validIdentifier_stableIdentifier _ (by decide) (by decide)⟩

/-- The identifiers of a delegation are the derived ones, and valid. -/
theorem delegation_spec {ids : ConductorOperationIds} {targetParticipantId : String} {ordinal : ℕ}
    {delegationIds : ConductorDelegationIds}
    (hids : Core.validIdentifier ids.operationId = true)
    (h : ids.delegation targetParticipantId ordinal = .ok delegationIds) :
    (DerivedId.delegationMessage ids.operationId targetParticipantId ordinal).Valid ∧
      delegationIds.messageId =
        (DerivedId.delegationMessage ids.operationId targetParticipantId ordinal).text ∧
      Core.validIdentifier delegationIds.messageId = true ∧
      delegationIds.dispatchId =
        (DerivedId.delegationDispatch ids.operationId targetParticipantId ordinal).text ∧
      Core.validIdentifier delegationIds.dispatchId = true := by
  rw [ConductorOperationIds.delegation] at h
  split at h
  · cases h
  rename_i hvalid
  simp only [Bool.or_eq_true, not_or, Bool.not_eq_true, Bool.not_eq_false', decide_eq_true_eq,
    not_le] at hvalid
  obtain rfl := Except.ok.inj h
  exact ⟨⟨hids, hvalid⟩, rfl, validIdentifier_stableIdentifier _ (by decide) (by decide), rfl,
    validIdentifier_stableIdentifier _ (by decide) (by decide)⟩

/-- Derived identifiers are the same only where they are of one kind, and of one recipient, and
where they are derived from the same or FNV-1a collides on the bytes that are hashed for them. What
a conductor derives is valid, and so are the identifiers of the replies. -/
theorem derived_ids :
    (∀ sourceMessageId sourceMessageId' recipientId recipientId', recipientId ≠ recipientId' →
      replyMessageId sourceMessageId recipientId ≠ replyMessageId sourceMessageId' recipientId') ∧
    (∀ id id' : DerivedId, id.kind ≠ id'.kind → id.text ≠ id'.text) ∧
    (∀ id id' : DerivedId, id.Valid → id'.Valid → id.kind = id'.kind →
      (id.hashed = id'.hashed → id = id') ∧
        (id.text = id'.text → id = id' ∨ Collides id.hashed id'.hashed)) ∧
    (∀ sourceMessageId conductorId ids,
      ConductorOperationIds.derive sourceMessageId conductorId = .ok ids →
        (ids.operationId = (DerivedId.operation sourceMessageId conductorId).text ∧
          ids.finalMessageId = (DerivedId.finalMessage ids.operationId).text) ∧
        (Core.validIdentifier ids.operationId = true ∧
          Core.validIdentifier ids.finalMessageId = true) ∧
        ∀ targetParticipantId ordinal delegationIds,
          ids.delegation targetParticipantId ordinal = .ok delegationIds →
            (delegationIds.messageId =
                (DerivedId.delegationMessage ids.operationId targetParticipantId ordinal).text ∧
              delegationIds.dispatchId =
                (DerivedId.delegationDispatch ids.operationId targetParticipantId ordinal).text) ∧
            Core.validIdentifier delegationIds.messageId = true ∧
              Core.validIdentifier delegationIds.dispatchId = true) ∧
    ∀ sourceMessageId, ∀ recipientId ∈ aiParticipantIds,
      Core.validIdentifier (replyMessageId sourceMessageId recipientId) = true := by
  refine ⟨?_, fun id id' hkind h => hkind (DerivedId.kind_of_text h), ?_, ?_, ?_⟩
  · intro sourceMessageId sourceMessageId' recipientId recipientId' hne h
    exact hne (replyMessageId_inj h).1
  · intro id id' hvalid hvalid' hkind
    have hinj := DerivedId.hashed_inj hvalid hvalid' hkind
    refine ⟨hinj, fun h => ?_⟩
    -- If what is hashed differs, the hashes are the same only by a collision.
    by_cases hhashed : id.hashed = id'.hashed
    · exact .inl (hinj hhashed)
    · exact .inr ⟨hhashed, DerivedId.fnv_of_text h⟩
  · intro sourceMessageId conductorId ids h
    obtain ⟨-, hoperation, hoperationId, hfinal, hfinalId⟩ := derive_spec h
    refine ⟨⟨hoperation, hfinal⟩, ⟨hoperationId, hfinalId⟩, ?_⟩
    intro targetParticipantId ordinal delegationIds hdelegation
    obtain ⟨-, hmessage, hmessageId, hdispatch, hdispatchId⟩ :=
      delegation_spec hoperationId hdelegation
    exact ⟨⟨hmessage, hdispatch⟩, hmessageId, hdispatchId⟩
  · intro sourceMessageId recipientId hrecipient
    exact TextAdapters.replyMessageId_valid hrecipient sourceMessageId

end Mio.Desktop.DerivedIds
