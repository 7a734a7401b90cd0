import Mio.Broker.ConfirmationRuns

/-!
# What a confirmation call leaves alone

A call that returns an error leaves the registry, but for an authorization that is asked for with
another scope: that request is finished. The end of a session removes the entries of that session
and counts them (`frame_laws`).
-/

namespace Mio.Broker

open Library Std CommandConfirmationRegistry

/-- What of a map passes a test, and the rest, together have its size. -/
theorem size_filter_add {α : Type} (map : ExtTreeMap String α) (test : α → Bool) :
    (map.filter fun _ value => test value).size + (map.filter fun _ value => !test value).size =
      map.size := by
  rw [← ExtTreeMap.length_toList, ← ExtTreeMap.length_toList, ← ExtTreeMap.length_toList,
    ExtTreeMap.toList_filter, ExtTreeMap.toList_filter]
  exact (List.length_eq_length_filter_add fun entry : String × α => test entry.2).symm

namespace CommandConfirmationRegistry

/-- The entries of a session. -/
def ofSession (registry : CommandConfirmationRegistry) (sessionId : String) :
    CommandConfirmationRegistry where
  pending := registry.pending.filter fun _ scope => scope.sessionId == sessionId
  ready := registry.ready.filter fun _ authorization => authorization.scope.sessionId == sessionId
  terminal := registry.terminal.filter fun _ terminalSessionId => terminalSessionId == sessionId
  roomSessionGrants := registry.roomSessionGrants.filter fun scope => scope.sessionId == sessionId

/-- The entries of a session and the others are all the entries. -/
theorem size_ofSession_add (registry : CommandConfirmationRegistry) (sessionId : String) :
    (registry.ofSession sessionId).size + (registry.withoutSession sessionId).size =
      registry.size := by
  have hpending := size_filter_add registry.pending fun scope => scope.sessionId == sessionId
  have hready := size_filter_add registry.ready fun authorization =>
    authorization.scope.sessionId == sessionId
  have hterminal := size_filter_add registry.terminal fun other => other == sessionId
  have hgrants := Finset.card_filter_add_card_filter_not (s := registry.roomSessionGrants)
    fun scope => (scope.sessionId == sessionId) = true
  have hnot : (registry.roomSessionGrants.filter fun scope =>
      (!scope.sessionId == sessionId) = true) =
      registry.roomSessionGrants.filter fun scope => ¬(scope.sessionId == sessionId) = true := by
    refine Finset.filter_congr fun scope _ => ?_
    simp
  simp only [size, ofSession, withoutSession, endRoomSession,
    bne, hnot] at hpending hready hterminal ⊢
  omega

end CommandConfirmationRegistry

section Frame

variable (registry : CommandConfirmationRegistry)

/-- A register that returns an error changes nothing. -/
theorem register_frame (request : CommandConfirmationRequest) {e : ConfirmationContractError}
    (h : (registry.register request).1 = .error e) : (registry.register request).2 = registry := by
  have hstep := register_step registry request
  rw [h] at hstep
  generalize (registry.register request).2 = after at hstep
  cases hstep with
  | registerKept => rfl

/-- A resolve that returns an error changes nothing. -/
theorem resolve_frame (requestId : String) (decision : ConfirmationDecision)
    {e : ConfirmationContractError} (h : (registry.resolve requestId decision).1 = .error e) :
    (registry.resolve requestId decision).2 = registry := by
  have hstep := resolve_step registry requestId decision
  rw [h] at hstep
  generalize (registry.resolve requestId decision).2 = after at hstep
  cases hstep with
  | resolveRefused => rfl

/-- A consumption that returns an error changes nothing, or it was asked for with another scope than
that of the ready request, which is terminal then. -/
theorem consumeAuthorization_frame (requestId : String) (scope : CommandConfirmationScope)
    {e : ConfirmationContractError}
    (h : (registry.consumeAuthorization requestId scope).1 = .error e) :
    e ≠ .scopeMismatch ∧ (registry.consumeAuthorization requestId scope).2 = registry ∨
      e = .scopeMismatch ∧ ∃ authorization, registry.ready[requestId]? = some authorization ∧
        authorization.scope ≠ scope ∧
        (registry.consumeAuthorization requestId scope).2 =
          { registry with
            ready := registry.ready.erase requestId
            terminal := registry.terminal.insert requestId authorization.scope.sessionId } := by
  have hstep := consumeAuthorization_step registry requestId scope
  have hresult := h
  rw [h] at hstep
  generalize (registry.consumeAuthorization requestId scope).2 = after at hstep ⊢
  cases hstep with
  | consumeRefused _ _ _ hne => exact .inl ⟨hne, rfl⟩
  | revoke _ _ authorization hready hroom =>
    refine .inr ⟨rfl, authorization, hready, ?_, rfl⟩
    rintro rfl
    rw [consumeAuthorization_eq hready hroom] at hresult
    cases hresult

end Frame

/-- What the calls leave alone in a registry. -/
structure FrameLaws (registry : CommandConfirmationRegistry) : Prop where
  register : ∀ request e, (registry.register request).1 = .error e →
    (registry.register request).2 = registry
  resolve : ∀ requestId decision e, (registry.resolve requestId decision).1 = .error e →
    (registry.resolve requestId decision).2 = registry
  /-- With another scope, the ready request is finished, and nothing else changes. -/
  consume : ∀ requestId scope e, (registry.consumeAuthorization requestId scope).1 = .error e →
    e ≠ .scopeMismatch ∧ (registry.consumeAuthorization requestId scope).2 = registry ∨
      e = .scopeMismatch ∧ ∃ authorization, registry.ready[requestId]? = some authorization ∧
        authorization.scope ≠ scope ∧
        (registry.consumeAuthorization requestId scope).2 =
          { registry with
            ready := registry.ready.erase requestId
            terminal := registry.terminal.insert requestId authorization.scope.sessionId }
  exclusive : Exclusive registry
  bounded : Bounded registry
  /-- The end of a session returns the number of its entries. -/
  removed : ∀ sessionId, (registry.endRoomSession sessionId).1 = (registry.ofSession sessionId).size
  /-- An entry stays if and only if it is not of the session. -/
  kept : ∀ sessionId requestId : String,
    (∀ scope : CommandConfirmationScope,
      (registry.endRoomSession sessionId).2.pending[requestId]? = some scope ↔
        registry.pending[requestId]? = some scope ∧ scope.sessionId ≠ sessionId) ∧
    (∀ authorization : ReadyAuthorization,
      (registry.endRoomSession sessionId).2.ready[requestId]? = some authorization ↔
        registry.ready[requestId]? = some authorization ∧
          authorization.scope.sessionId ≠ sessionId) ∧
    (∀ other : String, (registry.endRoomSession sessionId).2.terminal[requestId]? = some other ↔
      registry.terminal[requestId]? = some other ∧ other ≠ sessionId)
  keptGrants : ∀ (sessionId : String) (scope : CommandConfirmationScope),
    scope ∈ (registry.endRoomSession sessionId).2.roomSessionGrants ↔
      scope ∈ registry.roomSessionGrants ∧ scope.sessionId ≠ sessionId

/-- After every run of calls they hold. -/
theorem frame_laws (calls : List RegistryCall) : FrameLaws (observe calls).2 := by
  have hbounded := observe_bounded calls
  have hexclusive : Exclusive (observe calls).2 :=
    (observeFrom_recorded recorded_empty calls).exclusive
  generalize (observe calls).2 = registry at hbounded hexclusive
  constructor
  case register => exact fun request e h => register_frame registry request h
  case resolve => exact fun requestId decision e h => resolve_frame registry requestId decision h
  case consume => exact fun requestId scope e h =>
    consumeAuthorization_frame registry requestId scope h
  case exclusive => exact hexclusive
  case bounded => exact hbounded
  case removed =>
    intro sessionId
    have hsize := size_ofSession_add registry sessionId
    have hremoved : (registry.endRoomSession sessionId).1 =
        registry.size - (registry.withoutSession sessionId).size := rfl
    omega
  case kept => exact withoutSession_lookups registry
  case keptGrants =>
    intro sessionId scope
    simp [endRoomSession]

end Mio.Broker
