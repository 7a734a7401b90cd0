import Mio.Broker.Confirmation
import Mio.Library.Collect
import Mio.Library.Past

/-!
# No command runs without consent

Every call on the registry is recorded with its answer (`observe`). `RegistryStep` says what a call
can do, and `Recorded` ties the entries of the registry to what was recorded: a pending request to
its registration, a ready one to what authorized it, a grant to the decision that gave it, and a
request that is finished to its terminal record, all since the last end of their session.
`authorization_laws` reads off what an authorization that is consumed rests on.
-/

namespace Mio.Broker

open Library Std

/-! ## Calls and their answers -/

/-- The calls of a registry. -/
inductive RegistryCall where
  | register (request : CommandConfirmationRequest)
  | resolve (requestId : String) (decision : ConfirmationDecision)
  | consumeAuthorization (requestId : String) (expectedScope : CommandConfirmationScope)
  | endRoomSession (sessionId : String)

/-- What a call answers. -/
inductive RegistryAnswer where
  | registered (answer : Except ConfirmationContractError ConfirmationRegisterOutcome)
  | resolved (answer : Except ConfirmationContractError ConfirmationResolveOutcome)
  | consumed (answer : Except ConfirmationContractError CommandAuthorization)
  | ended (removed : ℕ)

/-- A call with its answer. -/
structure RegistryEvent where
  call : RegistryCall
  answer : RegistryAnswer

namespace CommandConfirmationRegistry

/-- The answer to a call, and the registry that it leaves. -/
def step (registry : CommandConfirmationRegistry) :
    RegistryCall → RegistryAnswer × CommandConfirmationRegistry
  | .register request =>
    let (answer, after) := registry.register request
    (.registered answer, after)
  | .resolve requestId decision =>
    let (answer, after) := registry.resolve requestId decision
    (.resolved answer, after)
  | .consumeAuthorization requestId expectedScope =>
    let (answer, after) := registry.consumeAuthorization requestId expectedScope
    (.consumed answer, after)
  | .endRoomSession sessionId =>
    let (removed, after) := registry.endRoomSession sessionId
    (.ended removed, after)

/-- The registry that calls leave, with the events so far, the latest first. -/
def observeFrom (observed : List RegistryEvent × CommandConfirmationRegistry)
    (calls : List RegistryCall) : List RegistryEvent × CommandConfirmationRegistry :=
  calls.foldl
    (fun (trace, registry) call =>
      let (answer, after) := registry.step call
      (⟨call, answer⟩ :: trace, after))
    observed

/-- What calls on an empty registry leave. -/
def observe (calls : List RegistryCall) : List RegistryEvent × CommandConfirmationRegistry :=
  observeFrom ([], empty) calls

end CommandConfirmationRegistry

open CommandConfirmationRegistry

/-! ## What a call does -/

/-- The decisions that allow a request of a scope, with the lifetime of the authorization. -/
inductive Allowing (scope : CommandConfirmationScope) :
    ConfirmationDecision → AuthorizationLifetime → Prop
  | once : Allowing scope .allowOnce .once
  | roomSession (h : scope.allowsRoomSession = true) : Allowing scope .allowRoomSession .roomSession

/-- A registry without the entries of a session. -/
def CommandConfirmationRegistry.withoutSession (registry : CommandConfirmationRegistry)
    (sessionId : String) : CommandConfirmationRegistry :=
  (registry.endRoomSession sessionId).2

/-- What a call can do, and the answer to it. -/
inductive RegistryStep (registry : CommandConfirmationRegistry) :
    RegistryEvent → CommandConfirmationRegistry → Prop
  /-- A refusal changes nothing, and neither does a request that is pending already. -/
  | registerKept (request : CommandConfirmationRequest)
    (answer : Except ConfirmationContractError ConfirmationRegisterOutcome)
    (h : (∃ e, answer = .error e) ∨
      answer = .ok .alreadyPending ∧ registry.pending[request.requestId]? = some request.scope) :
    RegistryStep registry ⟨.register request, .registered answer⟩ registry
  | resolveRefused (requestId : String) (decision : ConfirmationDecision)
    (e : ConfirmationContractError) :
    RegistryStep registry ⟨.resolve requestId decision, .resolved (.error e)⟩ registry
  | consumeRefused (requestId : String) (scope : CommandConfirmationScope)
    (e : ConfirmationContractError) (h : e ≠ .scopeMismatch) :
    RegistryStep registry ⟨.consumeAuthorization requestId scope, .consumed (.error e)⟩ registry
  /-- A request with a new identifier becomes pending. -/
  | pend (request : CommandConfirmationRequest)
    (hpending : registry.pending[request.requestId]? = none)
    (hready : registry.ready[request.requestId]? = none)
    (hterminal : registry.terminal[request.requestId]? = none)
    (hroom : registry.pending.size + registry.ready.size < maximumPendingConfirmations) :
    RegistryStep registry ⟨.register request, .registered (.ok .pending)⟩
      { registry with pending := registry.pending.insert request.requestId request.scope }
  /-- With a grant for its scope, it becomes ready. -/
  | authorize (request : CommandConfirmationRequest)
    (hpending : registry.pending[request.requestId]? = none)
    (hready : registry.ready[request.requestId]? = none)
    (hterminal : registry.terminal[request.requestId]? = none)
    (hroom : registry.pending.size + registry.ready.size < maximumPendingConfirmations)
    (hgrant : request.scope ∈ registry.roomSessionGrants) :
    RegistryStep registry ⟨.register request, .registered (.ok .authorizedByRoomSession)⟩
      { registry with
        ready := registry.ready.insert request.requestId
          { scope := request.scope, lifetime := .roomSession } }
  /-- A pending request is allowed, and a grant may be given with it. -/
  | allow (requestId : String) (scope : CommandConfirmationScope) (decision : ConfirmationDecision)
    (lifetime : AuthorizationLifetime) (hpending : registry.pending[requestId]? = some scope)
    (hallowing : Allowing scope decision lifetime)
    (hroom : registry.terminal.size < maximumTerminalConfirmations) :
    RegistryStep registry ⟨.resolve requestId decision, .resolved (.ok .authorizationReady)⟩
      { registry with
        pending := registry.pending.erase requestId
        ready := registry.ready.insert requestId { scope, lifetime }
        roomSessionGrants :=
          if lifetime = .roomSession then insert scope registry.roomSessionGrants
          else registry.roomSessionGrants }
  /-- A pending request is denied. -/
  | deny (requestId : String) (scope : CommandConfirmationScope) (decision : ConfirmationDecision)
    (denial : ConfirmationDenial) (hpending : registry.pending[requestId]? = some scope)
    (hroom : registry.terminal.size < maximumTerminalConfirmations) :
    RegistryStep registry ⟨.resolve requestId decision, .resolved (.ok (.denied denial))⟩
      { registry with
        pending := registry.pending.erase requestId
        terminal := registry.terminal.insert requestId scope.sessionId }
  /-- An authorization is consumed with its own scope. -/
  | consume (requestId : String) (authorization : ReadyAuthorization)
    (hready : registry.ready[requestId]? = some authorization)
    (hroom : registry.terminal.size < maximumTerminalConfirmations) :
    RegistryStep registry
      ⟨.consumeAuthorization requestId authorization.scope, .consumed (.ok
        { requestId, scope := authorization.scope, lifetime := authorization.lifetime })⟩
      { registry with
        ready := registry.ready.erase requestId
        terminal := registry.terminal.insert requestId authorization.scope.sessionId }
  /-- With another scope, it is lost. -/
  | revoke (requestId : String) (scope : CommandConfirmationScope)
    (authorization : ReadyAuthorization)
    (hready : registry.ready[requestId]? = some authorization)
    (hroom : registry.terminal.size < maximumTerminalConfirmations) :
    RegistryStep registry
      ⟨.consumeAuthorization requestId scope, .consumed (.error .scopeMismatch)⟩
      { registry with
        ready := registry.ready.erase requestId
        terminal := registry.terminal.insert requestId authorization.scope.sessionId }
  | endSession (sessionId : String) (removed : ℕ) :
    RegistryStep registry ⟨.endRoomSession sessionId, .ended removed⟩
      (registry.withoutSession sessionId)

section Steps

variable (registry : CommandConfirmationRegistry)

/-- With room for it, a request is finished. -/
theorem finishWith_eq {α : Type} {requestId sessionId : String}
    {answer : Except ConfirmationContractError α}
    (hroom : registry.terminal.size < maximumTerminalConfirmations) :
    registry.finishWith requestId sessionId answer =
      (answer, { registry with terminal := registry.terminal.insert requestId sessionId }) := by
  simp [finishWith, finishTerminal, Nat.not_le.mpr hroom]

/-- A registration takes a step of the registry. -/
theorem register_step (request : CommandConfirmationRequest) :
    RegistryStep registry ⟨.register request, .registered (registry.register request).1⟩
      (registry.register request).2 := by
  unfold register
  rcases hpending : registry.pending[request.requestId]? with _ | existing
  · dsimp only
    split_ifs with htaken hterminal hroom hgrant
    · exact .registerKept request _ (.inl ⟨_, rfl⟩)
    · exact .registerKept request _ (.inl ⟨_, rfl⟩)
    · exact .registerKept request _ (.inl ⟨_, rfl⟩)
    all_goals
      simp only [Bool.or_eq_true, not_or, Bool.not_eq_true, ExtTreeMap.contains_eq_isSome_getElem?,
        Option.isSome_eq_false_iff, Option.isNone_iff_eq_none] at htaken
    · exact .authorize request hpending htaken.1 htaken.2 (by omega) hgrant
    · exact .pend request hpending htaken.1 htaken.2 (by omega)
  · dsimp only
    split_ifs with hsame
    · obtain rfl : existing = request.scope := by simpa using hsame
      exact .registerKept request _ (.inr ⟨rfl, hpending⟩)
    · exact .registerKept request _ (.inl ⟨_, rfl⟩)

/-- A decision takes a step of the registry. -/
theorem resolve_step (requestId : String) (decision : ConfirmationDecision) :
    RegistryStep registry
      ⟨.resolve requestId decision, .resolved (registry.resolve requestId decision).1⟩
      (registry.resolve requestId decision).2 := by
  unfold resolve
  split_ifs with hterminal htaken
  · exact .resolveRefused requestId decision _
  · exact .resolveRefused requestId decision _
  rcases hpending : registry.pending[requestId]? with _ | scope
  · exact .resolveRefused requestId decision _
  dsimp only
  -- The guard of the full terminal table was passed.
  have hroom : registry.terminal.size < maximumTerminalConfirmations := by omega
  have hdeny : ∀ denial, RegistryStep registry
      ⟨.resolve requestId decision, .resolved (.ok (.denied denial))⟩
      { registry with
        pending := registry.pending.erase requestId
        terminal := registry.terminal.insert requestId scope.sessionId } :=
    fun denial => .deny requestId scope decision denial hpending hroom
  -- Every denial ends the request in the same way.
  have hfinish : ∀ denial, finishWith requestId scope.sessionId
      (.ok (ConfirmationResolveOutcome.denied denial))
      { registry with pending := registry.pending.erase requestId } =
        (.ok (.denied denial),
          { registry with
            pending := registry.pending.erase requestId
            terminal := registry.terminal.insert requestId scope.sessionId }) :=
    fun denial => finishWith_eq _ hroom
  cases decision with
  | allowOnce => exact .allow requestId scope .allowOnce .once hpending .once hroom
  | allowRoomSession =>
    dsimp only
    -- A room session is only granted for what may be granted so, and is a denial otherwise.
    split_ifs with hallows
    · exact .allow requestId scope .allowRoomSession .roomSession hpending (.roomSession hallows)
        hroom
    · rw [hfinish]
      exact hdeny _
  | deny | dismissed | timedOut =>
    dsimp only
    rw [hfinish]
    exact hdeny _

/-- A consumption takes a step of the registry. -/
theorem consumeAuthorization_step (requestId : String) (expectedScope : CommandConfirmationScope) :
    RegistryStep registry
      ⟨.consumeAuthorization requestId expectedScope,
        .consumed (registry.consumeAuthorization requestId expectedScope).1⟩
      (registry.consumeAuthorization requestId expectedScope).2 := by
  unfold consumeAuthorization
  split_ifs with hterminal
  · exact .consumeRefused requestId expectedScope _ (by simp)
  rcases hready : registry.ready[requestId]? with _ | authorization
  · refine .consumeRefused requestId expectedScope _ ?_
    unfold missingRequestError
    split <;> simp
  dsimp only
  have hroom : registry.terminal.size < maximumTerminalConfirmations := by omega
  split_ifs with hscope
  · rw [finishWith_eq]
    · exact .revoke requestId expectedScope authorization hready hroom
    · exact hroom
  · obtain rfl : authorization.scope = expectedScope := by simpa using hscope
    rw [finishWith_eq]
    · exact .consume requestId authorization hready hroom
    · exact hroom

/-- Every call takes such a step. -/
theorem CommandConfirmationRegistry.step_step (call : RegistryCall) :
    RegistryStep registry ⟨call, (registry.step call).1⟩ (registry.step call).2 := by
  cases call with
  | register request => exact register_step registry request
  | resolve requestId decision => exact resolve_step registry requestId decision
  | consumeAuthorization requestId scope => exact consumeAuthorization_step registry requestId scope
  | endRoomSession sessionId => exact .endSession sessionId _

end Steps

/-! ## What an event is to a request -/

/-- The event ends the session. -/
def Ends (sessionId : String) (event : RegistryEvent) : Prop :=
  event.call = .endRoomSession sessionId

/-- The event registers a request with this identifier and scope. -/
def Registers (requestId : String) (scope : CommandConfirmationScope)
    (outcome : ConfirmationRegisterOutcome) (event : RegistryEvent) : Prop :=
  ∃ request : CommandConfirmationRequest, request.requestId = requestId ∧ request.scope = scope ∧
    event = ⟨.register request, .registered (.ok outcome)⟩

/-- The event admits a request: it was not in the registry. -/
def Admits (requestId : String) (scope : CommandConfirmationScope) (event : RegistryEvent) : Prop :=
  Registers requestId scope .pending event ∨
    Registers requestId scope .authorizedByRoomSession event

/-- The event allows a request of the scope. -/
def Allows (requestId : String) (scope : CommandConfirmationScope) (event : RegistryEvent) : Prop :=
  ∃ decision lifetime, Allowing scope decision lifetime ∧
    event = ⟨.resolve requestId decision, .resolved (.ok .authorizationReady)⟩

/-- The event denies a request, for any of the reasons. -/
def Denies (requestId : String) (event : RegistryEvent) : Prop :=
  ∃ decision denial, event = ⟨.resolve requestId decision, .resolved (.ok (.denied denial))⟩

/-- The event consumes an authorization. -/
def Consumes (requestId : String) (event : RegistryEvent) : Prop :=
  ∃ scope authorization,
    event = ⟨.consumeAuthorization requestId scope, .consumed (.ok authorization)⟩

/-- The event loses an authorization, because the scope is another. -/
def Revokes (requestId : String) (event : RegistryEvent) : Prop :=
  ∃ scope, event = ⟨.consumeAuthorization requestId scope, .consumed (.error .scopeMismatch)⟩

/-- The event finishes a request. -/
def Finishes (requestId : String) (event : RegistryEvent) : Prop :=
  Denies requestId event ∨ Consumes requestId event ∨ Revokes requestId event

/-- The event neither ends the session nor admits or consumes the request. -/
structure Quiet (requestId sessionId : String) (event : RegistryEvent) : Prop where
  ends : ¬Ends sessionId event
  admits : ∀ scope, ¬Admits requestId scope event
  consumes : ¬Consumes requestId event

/-- The request was registered with the scope, and is neither consumed nor ended since. -/
def Requested (requestId : String) (scope : CommandConfirmationScope) :
    List RegistryEvent → Prop :=
  Since (Quiet requestId scope.sessionId) fun _ event => Registers requestId scope .pending event

/-- A grant for the scope stands: a request of the scope was allowed for the room session, and the
session has not ended since. -/
def Granted (scope : CommandConfirmationScope) : List RegistryEvent → Prop :=
  Since (fun event => ¬Ends scope.sessionId event) fun past event =>
    scope.allowsRoomSession = true ∧ ∃ requestId, Requested requestId scope past ∧
      event = ⟨.resolve requestId .allowRoomSession, .resolved (.ok .authorizationReady)⟩

/-- The request is authorized: it was registered with the scope and has been allowed since, or a
grant for the scope stood when it was registered. It is neither consumed nor ended since. -/
def Authorized (requestId : String) (scope : CommandConfirmationScope) :
    List RegistryEvent → Prop :=
  Since (Quiet requestId scope.sessionId) fun past event =>
    Allows requestId scope event ∧ Requested requestId scope past ∨
      Registers requestId scope .authorizedByRoomSession event ∧ Granted scope past

/-- The request was admitted with the scope, and its session has not ended since. -/
def Admitted (requestId : String) (scope : CommandConfirmationScope) :
    List RegistryEvent → Prop :=
  Since (fun event => ¬Ends scope.sessionId event ∧ ∀ other, ¬Admits requestId other event)
    fun _ event => Admits requestId scope event

/-- The request was finished after it was admitted, and its session has not ended since. -/
def Finished (requestId sessionId : String) : List RegistryEvent → Prop :=
  Since (fun event => ¬Ends sessionId event) fun past event =>
    Finishes requestId event ∧
      ∃ scope, scope.sessionId = sessionId ∧ Admitted requestId scope past

/-! ## The entries and what is recorded -/

/-- No identifier has two entries. -/
structure Exclusive (registry : CommandConfirmationRegistry) : Prop where
  pending_ready : ∀ {requestId : String} {scope authorization},
    registry.pending[requestId]? = some scope →
    registry.ready[requestId]? ≠ some authorization
  pending_terminal : ∀ {requestId : String} {scope sessionId},
    registry.pending[requestId]? = some scope →
    registry.terminal[requestId]? ≠ some sessionId
  ready_terminal : ∀ {requestId : String} {authorization sessionId},
    registry.ready[requestId]? = some authorization →
      registry.terminal[requestId]? ≠ some sessionId

/-- The request is in the registry, with its scope. -/
def Held (registry : CommandConfirmationRegistry) (requestId : String)
    (scope : CommandConfirmationScope) : Prop :=
  registry.pending[requestId]? = some scope ∨
    (∃ lifetime, registry.ready[requestId]? = some { scope, lifetime }) ∨
      registry.terminal[requestId]? = some scope.sessionId

/-- What the entries of the registry have to do with what is recorded. -/
structure Recorded (trace : List RegistryEvent)
    (registry : CommandConfirmationRegistry) : Prop where
  exclusive : Exclusive registry
  pending : ∀ requestId scope, registry.pending[requestId]? = some scope →
    Requested requestId scope trace
  ready : ∀ requestId authorization, registry.ready[requestId]? = some authorization →
    Authorized requestId authorization.scope trace
  grants : ∀ scope ∈ registry.roomSessionGrants, Granted scope trace
  admitted : ∀ requestId scope, Admitted requestId scope trace → Held registry requestId scope
  finished : ∀ requestId sessionId, Finished requestId sessionId trace →
    registry.terminal[requestId]? = some sessionId

/-- What is left of a registry without the entries of a session. -/
theorem withoutSession_lookups (registry : CommandConfirmationRegistry)
    (sessionId requestId : String) :
    (∀ scope, (registry.withoutSession sessionId).pending[requestId]? = some scope ↔
      registry.pending[requestId]? = some scope ∧ scope.sessionId ≠ sessionId) ∧
    (∀ authorization, (registry.withoutSession sessionId).ready[requestId]? = some authorization ↔
      registry.ready[requestId]? = some authorization ∧
        authorization.scope.sessionId ≠ sessionId) ∧
    ∀ other, (registry.withoutSession sessionId).terminal[requestId]? = some other ↔
      registry.terminal[requestId]? = some other ∧ other ≠ sessionId := by
  simp [withoutSession, endRoomSession]

section Steps

variable {registry after : CommandConfirmationRegistry} {event : RegistryEvent}

/-- A step keeps the entries of an identifier apart. -/
theorem RegistryStep.exclusive (hstep : RegistryStep registry event after)
    (h : Exclusive registry) : Exclusive after := by
  have hpr := @h.pending_ready
  have hpt := @h.pending_terminal
  have hrt := @h.ready_terminal
  cases hstep with
  | registerKept | resolveRefused | consumeRefused => exact h
  | endSession sessionId =>
    refine ⟨?_, ?_, ?_⟩ <;> intro requestId <;>
      simp only [(withoutSession_lookups registry sessionId requestId).1,
        (withoutSession_lookups registry sessionId requestId).2.1,
        (withoutSession_lookups registry sessionId requestId).2.2, ne_eq, not_and]
    · exact fun h₁ h₂ => absurd h₂ (hpr h₁.1)
    · exact fun h₁ h₂ => absurd h₂ (hpt h₁.1)
    · exact fun h₁ h₂ => absurd h₂ (hrt h₁.1)
  | pend | authorize | allow | deny | consume | revoke =>
    refine ⟨?_, ?_, ?_⟩ <;> intro requestId <;>
      simp only [getElem?_insert_eq_some, getElem?_erase_eq_some, ne_eq] <;> grind

/-- A step that leaves a request pending or ready is quiet for it. -/
theorem RegistryStep.quiet (hstep : RegistryStep registry event after) (h : Exclusive registry)
    {requestId : String} {scope : CommandConfirmationScope}
    (hopen : registry.pending[requestId]? = some scope ∧ after.pending[requestId]? = some scope ∨
      ∃ lifetime, registry.ready[requestId]? = some { scope, lifetime } ∧
        after.ready[requestId]? = some { scope, lifetime }) :
    Quiet requestId scope.sessionId event := by
  have hpr := @h.pending_ready
  refine ⟨?_, ?_, ?_⟩
  · intro hends
    cases hstep with
    | endSession sessionId =>
      obtain rfl : sessionId = scope.sessionId := by simpa [Ends] using hends
      obtain ⟨hpending, hready, -⟩ := withoutSession_lookups registry scope.sessionId requestId
      rcases hopen with ⟨-, hafter⟩ | ⟨lifetime, -, hafter⟩
      · exact ((hpending scope).mp hafter).2 rfl
      · exact ((hready _).mp hafter).2 rfl
    | _ => simp [Ends] at hends
  · rintro other (⟨request, rfl, -, rfl⟩ | ⟨request, rfl, -, rfl⟩) <;> cases hstep <;> grind
  · rintro ⟨_, _, rfl⟩
    cases hstep with
    | consume _ authorization hready =>
      rcases hopen with ⟨hpending, -⟩ | ⟨lifetime, -, hafter⟩
      · exact hpr hpending hready
      · exact (getElem?_erase_eq_some.mp hafter).1 rfl

/-- A request is pending after a step if it was before, or if the step registers it. -/
theorem RegistryStep.pending (hstep : RegistryStep registry event after) {requestId : String}
    {scope : CommandConfirmationScope} (hpending : after.pending[requestId]? = some scope) :
    registry.pending[requestId]? = some scope ∨ Registers requestId scope .pending event := by
  cases hstep with
  | pend request =>
    rcases getElem?_insert_eq_some.mp hpending with ⟨rfl, rfl⟩ | ⟨-, hbefore⟩
    · exact .inr ⟨request, rfl, rfl, rfl⟩
    · exact .inl hbefore
  | allow | deny => exact .inl (getElem?_erase_eq_some.mp hpending).2
  | endSession sessionId =>
    exact .inl (((withoutSession_lookups registry sessionId requestId).1 scope).mp hpending).1
  | _ => exact .inl hpending

/-- A request is ready after a step if it was before, or if the step allows it or registers it with
a grant. -/
theorem RegistryStep.ready (hstep : RegistryStep registry event after) {requestId : String}
    {authorization : ReadyAuthorization} (hready : after.ready[requestId]? = some authorization) :
    registry.ready[requestId]? = some authorization ∨
      (Allows requestId authorization.scope event ∧
        registry.pending[requestId]? = some authorization.scope) ∨
      Registers requestId authorization.scope .authorizedByRoomSession event ∧
        authorization.scope ∈ registry.roomSessionGrants := by
  cases hstep with
  | authorize request _ _ _ _ hgrant =>
    rcases getElem?_insert_eq_some.mp hready with ⟨rfl, rfl⟩ | ⟨-, hbefore⟩
    · exact .inr (.inr ⟨⟨request, rfl, rfl, rfl⟩, hgrant⟩)
    · exact .inl hbefore
  | allow id scope decision lifetime hpending hallowing =>
    rcases getElem?_insert_eq_some.mp hready with ⟨rfl, rfl⟩ | ⟨-, hbefore⟩
    · exact .inr (.inl ⟨⟨decision, lifetime, hallowing, rfl⟩, hpending⟩)
    · exact .inl hbefore
  | consume | revoke => exact .inl (getElem?_erase_eq_some.mp hready).2
  | endSession sessionId =>
    exact .inl (((withoutSession_lookups registry sessionId requestId).2.1 _).mp hready).1
  | _ => exact .inl hready

/-- A grant stands after a step if it stood before, or if the step gives it. -/
theorem RegistryStep.grant (hstep : RegistryStep registry event after)
    {scope : CommandConfirmationScope} (hgrant : scope ∈ after.roomSessionGrants) :
    (scope ∈ registry.roomSessionGrants ∧ ¬Ends scope.sessionId event) ∨
      scope.allowsRoomSession = true ∧ ∃ requestId,
        registry.pending[requestId]? = some scope ∧
          event = ⟨.resolve requestId .allowRoomSession, .resolved (.ok .authorizationReady)⟩ := by
  cases hstep with
  | allow requestId allowed decision lifetime hpending hallowing =>
    cases hallowing with
    | once => exact .inl ⟨by simpa using hgrant, by simp [Ends]⟩
    | roomSession hallows =>
      rw [if_pos rfl, Finset.mem_insert] at hgrant
      rcases hgrant with rfl | hgrant
      · exact .inr ⟨hallows, requestId, hpending, rfl⟩
      · exact .inl ⟨hgrant, by simp [Ends]⟩
  | endSession sessionId =>
    obtain ⟨hbefore, hother⟩ := Finset.mem_filter.mp hgrant
    refine .inl ⟨hbefore, fun hends => ?_⟩
    obtain rfl : sessionId = scope.sessionId := by simpa [Ends] using hends
    simp at hother
  | _ => exact .inl ⟨hgrant, by simp [Ends]⟩

/-- A terminal record stays until its session ends. -/
theorem RegistryStep.terminal (hstep : RegistryStep registry event after) (h : Exclusive registry)
    {requestId sessionId : String} (hterminal : registry.terminal[requestId]? = some sessionId)
    (hends : ¬Ends sessionId event) : after.terminal[requestId]? = some sessionId := by
  have hpt := @h.pending_terminal
  have hrt := @h.ready_terminal
  cases hstep with
  | deny id scope decision denial hpending =>
    refine getElem?_insert_eq_some.mpr (.inr ⟨?_, hterminal⟩)
    rintro rfl
    exact hpt hpending hterminal
  | consume id authorization hready | revoke id scope authorization hready =>
    refine getElem?_insert_eq_some.mpr (.inr ⟨?_, hterminal⟩)
    rintro rfl
    exact hrt hready hterminal
  | endSession ended =>
    refine ((withoutSession_lookups registry ended requestId).2.2 _).mpr ⟨hterminal, ?_⟩
    rintro rfl
    exact hends rfl
  | _ => exact hterminal

/-- A request stays in the registry until its session ends. -/
theorem RegistryStep.held (hstep : RegistryStep registry event after) (h : Exclusive registry)
    {requestId : String} {scope : CommandConfirmationScope} (hheld : Held registry requestId scope)
    (hends : ¬Ends scope.sessionId event) : Held after requestId scope := by
  have hpr := @h.pending_ready
  -- Split by where the scope is held: only the end of its session can take it away.
  rcases hheld with hpending | ⟨lifetime, hready⟩ | hterminal
  · cases hstep with
    | pend request hnew =>
      refine .inl (getElem?_insert_eq_some.mpr (.inr ⟨?_, hpending⟩))
      rintro rfl
      simp [hnew] at hpending
    -- The allowed request is held as an authorization from now on.
    | allow id allowed decision lifetime hallowed =>
      by_cases hid : requestId = id
      · subst hid
        obtain rfl : allowed = scope := by simpa [hallowed] using hpending
        exact .inr (.inl ⟨lifetime, getElem?_insert_eq_some.mpr (.inl ⟨rfl, rfl⟩)⟩)
      · exact .inl (getElem?_erase_eq_some.mpr ⟨hid, hpending⟩)
    -- The denied request is held as a terminal entry from now on.
    | deny id denied decision denial hdenied =>
      by_cases hid : requestId = id
      · subst hid
        obtain rfl : denied = scope := by simpa [hdenied] using hpending
        exact .inr (.inr (getElem?_insert_eq_some.mpr (.inl ⟨rfl, rfl⟩)))
      · exact .inl (getElem?_erase_eq_some.mpr ⟨hid, hpending⟩)
    | endSession ended =>
      refine .inl (((withoutSession_lookups registry ended requestId).1 _).mpr ⟨hpending, ?_⟩)
      rintro rfl
      exact hends rfl
    | _ => exact .inl hpending
  · cases hstep with
    | authorize request _ hnew =>
      refine .inr (.inl ⟨lifetime, getElem?_insert_eq_some.mpr (.inr ⟨?_, hready⟩)⟩)
      rintro rfl
      simp [hnew] at hready
    | allow id allowed decision given hallowed =>
      refine .inr (.inl ⟨lifetime, getElem?_insert_eq_some.mpr (.inr ⟨?_, hready⟩)⟩)
      rintro rfl
      exact hpr hallowed hready
    -- A consumed or revoked authorization leaves a terminal entry too.
    | consume id authorization hconsumed | revoke id other authorization hconsumed =>
      by_cases hid : requestId = id
      · subst hid
        obtain rfl : authorization = { scope, lifetime } := by simpa [hconsumed] using hready
        exact .inr (.inr (getElem?_insert_eq_some.mpr (.inl ⟨rfl, rfl⟩)))
      · exact .inr (.inl ⟨lifetime, getElem?_erase_eq_some.mpr ⟨hid, hready⟩⟩)
    | endSession ended =>
      refine .inr (.inl ⟨lifetime, ((withoutSession_lookups registry ended requestId).2.1 _).mpr
        ⟨hready, ?_⟩⟩)
      rintro rfl
      exact hends rfl
    | _ => exact .inr (.inl ⟨lifetime, hready⟩)
  · exact .inr (.inr (hstep.terminal h hterminal hends))

/-- A request that a step admits is in the registry. -/
theorem RegistryStep.held_of_admits (hstep : RegistryStep registry event after) {requestId : String}
    {scope : CommandConfirmationScope} (hadmits : Admits requestId scope event) :
    Held after requestId scope := by
  rcases hadmits with ⟨request, rfl, rfl, rfl⟩ | ⟨request, rfl, rfl, rfl⟩
  · cases hstep with
    | registerKept _ _ h => simp at h
    | pend => exact .inl (getElem?_insert_eq_some.mpr (.inl ⟨rfl, rfl⟩))
  · cases hstep with
    | registerKept _ _ h => simp at h
    | authorize =>
      exact .inr (.inl ⟨.roomSession, getElem?_insert_eq_some.mpr (.inl ⟨rfl, rfl⟩)⟩)

/-- A request that a step finishes gets a terminal record with its session. -/
theorem RegistryStep.terminal_of_finishes (hstep : RegistryStep registry event after)
    (h : Exclusive registry) {requestId : String} {scope : CommandConfirmationScope}
    (hheld : Held registry requestId scope) (hfinishes : Finishes requestId event) :
    after.terminal[requestId]? = some scope.sessionId := by
  have hpr := @h.pending_ready
  have hpt := @h.pending_terminal
  have hrt := @h.ready_terminal
  -- One of three: a denial, a consumption, and a consumption with another scope.
  rcases hfinishes with ⟨decision, denial, rfl⟩ | ⟨_, _, rfl⟩ | ⟨_, rfl⟩
  · cases hstep with
    | deny _ denied _ _ hdenied =>
      refine getElem?_insert_eq_some.mpr (.inl ⟨rfl, ?_⟩)
      -- The entry that is taken is the one that was held, as the three tables share no identifier.
      rcases hheld with hpending | ⟨lifetime, hready⟩ | hterminal
      · obtain rfl : denied = scope := by simpa [hdenied] using hpending
        rfl
      · exact absurd hready (hpr hdenied)
      · exact absurd hterminal (hpt hdenied)
  · cases hstep with
    | consume _ authorization hready =>
      refine getElem?_insert_eq_some.mpr (.inl ⟨rfl, ?_⟩)
      rcases hheld with hpending | ⟨lifetime, hready'⟩ | hterminal
      · exact absurd hready (hpr hpending)
      · obtain rfl : authorization = { scope, lifetime } := by simpa [hready] using hready'
        rfl
      · exact absurd hterminal (hrt hready)
  · cases hstep with
    | consumeRefused _ _ _ h => exact absurd rfl h
    | revoke _ _ authorization hready =>
      refine getElem?_insert_eq_some.mpr (.inl ⟨rfl, ?_⟩)
      rcases hheld with hpending | ⟨lifetime, hready'⟩ | hterminal
      · exact absurd hready (hpr hpending)
      · obtain rfl : authorization = { scope, lifetime } := by simpa [hready] using hready'
        rfl
      · exact absurd hterminal (hrt hready)

/-- A step records what it does. -/
theorem Recorded.step {trace : List RegistryEvent} (h : Recorded trace registry)
    (hstep : RegistryStep registry event after) : Recorded (event :: trace) after := by
  refine ⟨hstep.exclusive h.exclusive, fun requestId scope hpending => ?_,
    fun requestId authorization hready => ?_, fun scope hgrant => ?_,
    fun requestId scope hadmitted => ?_, fun requestId sessionId hfinished => ?_⟩
  · rcases hstep.pending hpending with hbefore | hregisters
    · exact .later (hstep.quiet h.exclusive (.inl ⟨hbefore, hpending⟩))
        (h.pending requestId scope hbefore)
    · exact .now hregisters
  · rcases hstep.ready hready with hbefore | ⟨hallows, hpending⟩ | ⟨hregisters, hgrant⟩
    · have hquiet := hstep.quiet h.exclusive (.inr ⟨authorization.lifetime, hbefore, hready⟩)
      exact .later hquiet (h.ready requestId authorization hbefore)
    · exact .now (.inl ⟨hallows, h.pending requestId _ hpending⟩)
    · exact .now (.inr ⟨hregisters, h.grants _ hgrant⟩)
  · rcases hstep.grant hgrant with ⟨hbefore, hends⟩ | ⟨hallows, requestId, hpending, hevent⟩
    · exact .later hends (h.grants scope hbefore)
    · exact .now ⟨hallows, requestId, h.pending requestId scope hpending, hevent⟩
  · rcases since_cons.mp hadmitted with hadmits | ⟨⟨hends, -⟩, hbefore⟩
    · exact hstep.held_of_admits hadmits
    · exact hstep.held h.exclusive (h.admitted requestId scope hbefore) hends
  · rcases since_cons.mp hfinished with ⟨hfinishes, scope, rfl, hadmitted⟩ | ⟨hends, hbefore⟩
    · exact hstep.terminal_of_finishes h.exclusive (h.admitted requestId scope hadmitted) hfinishes
    · exact hstep.terminal h.exclusive (h.finished requestId sessionId hbefore) hends

/-- In the empty registry nothing is recorded. -/
theorem recorded_empty : Recorded [] empty := by
  refine ⟨⟨by simp [empty], by simp [empty], by simp [empty]⟩, by simp [empty], by simp [empty],
    by simp [empty], ?_, ?_⟩
  · intro requestId scope hadmitted
    cases hadmitted
  · intro requestId sessionId hfinished
    cases hfinished

/-- Calls record what they do. -/
theorem observeFrom_recorded {trace : List RegistryEvent} (h : Recorded trace registry)
    (calls : List RegistryCall) :
    Recorded (observeFrom (trace, registry) calls).1 (observeFrom (trace, registry) calls).2 := by
  induction calls generalizing trace registry with
  | nil => exact h
  | cons call calls ih => exact ih (h.step (registry.step_step call))

/-- Only a ready authorization is consumed, and only with its own scope. -/
theorem consumeAuthorization_eq_ok {requestId : String} {scope : CommandConfirmationScope}
    {authorization : CommandAuthorization}
    (h : (registry.consumeAuthorization requestId scope).1 = .ok authorization) :
    authorization.requestId = requestId ∧ authorization.scope = scope ∧
      registry.ready[requestId]? = some { scope, lifetime := authorization.lifetime } := by
  have hstep := consumeAuthorization_step registry requestId scope
  rw [h] at hstep
  generalize (registry.consumeAuthorization requestId scope).2 = after at hstep
  cases hstep with
  | consume _ ready hready => exact ⟨rfl, rfl, hready⟩

/-- A request with a terminal record is not registered. -/
theorem register_of_terminal (h : Exclusive registry) {request : CommandConfirmationRequest}
    {sessionId : String} (hterminal : registry.terminal[request.requestId]? = some sessionId) :
    ∃ e, (registry.register request).1 = .error e := by
  have hstep := register_step registry request
  generalize (registry.register request).1 = answer,
    (registry.register request).2 = after at hstep ⊢
  cases hstep with
  | registerKept _ answer hkept =>
    rcases hkept with herror | ⟨-, hpending⟩
    · exact herror
    · exact absurd hterminal (h.pending_terminal hpending)
  | pend _ _ _ hnew => simp [hnew] at hterminal
  | authorize _ _ _ hnew => simp [hnew] at hterminal

end Steps

/-- What an authorization rests on, and what a request that is finished can no longer do. -/
structure AuthorizationLaws (trace : List RegistryEvent) (registry : CommandConfirmationRegistry) :
    Prop where
  /-- What is consumed is the authorization of the request with the scope that it was registered
  with. It was allowed, by a decision on the request or by a grant for the scope, and since its
  registration it was not consumed and its session has not ended. -/
  consumed : ∀ requestId scope authorization,
    (registry.consumeAuthorization requestId scope).1 = .ok authorization →
      authorization.requestId = requestId ∧ authorization.scope = scope ∧
        Authorized requestId scope trace
  /-- A request that was denied, dismissed, timed out, consumed, or lost can neither be consumed nor
  be registered until its session has ended. -/
  finished : ∀ requestId sessionId, Finished requestId sessionId trace →
    (∀ scope, ∃ e, (registry.consumeAuthorization requestId scope).1 = .error e) ∧
      ∀ request : CommandConfirmationRequest, request.requestId = requestId →
        ∃ e, (registry.register request).1 = .error e

/-- After every run of calls, the laws hold of what was recorded. -/
theorem authorization_laws (calls : List RegistryCall) :
    AuthorizationLaws (observe calls).1 (observe calls).2 := by
  have hrecorded := observeFrom_recorded recorded_empty calls
  refine ⟨fun requestId scope authorization hconsumed => ?_,
    fun requestId sessionId hfinished => ?_⟩
  · obtain ⟨hid, hscope, hready⟩ := consumeAuthorization_eq_ok hconsumed
    exact ⟨hid, hscope, hrecorded.ready requestId _ hready⟩
  · have hterminal := hrecorded.finished requestId sessionId hfinished
    refine ⟨fun scope => ?_, ?_⟩
    · rcases hanswer : ((observe calls).2.consumeAuthorization requestId scope).1 with e |
        authorization
      · exact ⟨e, rfl⟩
      · obtain ⟨-, -, hready⟩ := consumeAuthorization_eq_ok hanswer
        exact absurd hterminal (hrecorded.exclusive.ready_terminal hready)
    · rintro request rfl
      exact register_of_terminal hrecorded.exclusive hterminal

/-! ## Room for what was admitted -/

/-- The registry is within its limits. -/
structure Bounded (registry : CommandConfirmationRegistry) : Prop where
  requests : registry.pending.size + registry.ready.size ≤ maximumPendingConfirmations
  terminal : registry.terminal.size ≤ maximumTerminalConfirmations

section Room

variable {registry after : CommandConfirmationRegistry} {event : RegistryEvent}

/-- An insertion adds at most one entry. -/
theorem size_insert_le {α : Type} (map : ExtTreeMap String α) (key : String) (value : α) :
    (map.insert key value).size ≤ map.size + 1 := by
  rw [ExtTreeMap.size_insert]
  split <;> omega

/-- A removal of an entry that is there leaves one less. -/
theorem size_erase_of_some {α : Type} {map : ExtTreeMap String α} {key : String} {value : α}
    (h : map[key]? = some value) : (map.erase key).size + 1 = map.size := by
  have hcontains : map.contains key = true := by
    rw [ExtTreeMap.contains_eq_isSome_getElem?, h]
    rfl
  have hpos : map.size ≠ 0 := by
    intro hzero
    obtain rfl := ExtTreeMap.eq_empty_iff_size_eq_zero.mpr hzero
    simp at h
  rw [ExtTreeMap.size_erase, if_pos hcontains]
  omega

/-- A step keeps the registry within its limits. -/
theorem RegistryStep.bounded (hstep : RegistryStep registry event after) (h : Bounded registry) :
    Bounded after := by
  obtain ⟨hrequests, hterminal⟩ := h
  cases hstep with
  | registerKept | resolveRefused | consumeRefused => exact ⟨hrequests, hterminal⟩
  -- A new request needs room, and any other step only moves one or takes it away.
  | pend request _ _ _ hroom =>
    have hsize := size_insert_le registry.pending request.requestId request.scope
    refine ⟨?_, hterminal⟩
    dsimp only
    omega
  | authorize request _ _ _ hroom =>
    have hsize := size_insert_le registry.ready request.requestId
      { scope := request.scope, lifetime := .roomSession }
    refine ⟨?_, hterminal⟩
    dsimp only
    omega
  | allow id scope _ lifetime hpending =>
    have hless := size_erase_of_some hpending
    have hsize := size_insert_le registry.ready id { scope, lifetime }
    refine ⟨?_, hterminal⟩
    dsimp only
    omega
  | deny id scope _ _ hpending hroom =>
    have hless := size_erase_of_some hpending
    have hsize := size_insert_le registry.terminal id scope.sessionId
    constructor <;> dsimp only <;> omega
  | consume id authorization hready hroom | revoke id _ authorization hready hroom =>
    have hless := size_erase_of_some hready
    have hsize := size_insert_le registry.terminal id authorization.scope.sessionId
    constructor <;> dsimp only <;> omega
  | endSession sessionId =>
    have hp := ExtTreeMap.size_filter_le_size (t := registry.pending)
      (f := fun _ scope => scope.sessionId != sessionId)
    have hr := ExtTreeMap.size_filter_le_size (t := registry.ready)
      (f := fun _ authorization => authorization.scope.sessionId != sessionId)
    have ht := ExtTreeMap.size_filter_le_size (t := registry.terminal)
      (f := fun _ other => other != sessionId)
    constructor <;> dsimp only [withoutSession, endRoomSession] <;> omega

/-- A run of calls does. -/
theorem observeFrom_bounded (trace : List RegistryEvent) (h : Bounded registry)
    (calls : List RegistryCall) : Bounded (observeFrom (trace, registry) calls).2 := by
  induction calls generalizing trace registry with
  | nil => exact h
  | cons call calls ih => exact ih _ ((registry.step_step call).bounded h)

/-- So the limits hold after every run from the empty registry. -/
theorem observe_bounded (calls : List RegistryCall) : Bounded (observe calls).2 := by
  have hempty : Bounded empty := ⟨by simp [empty], by simp [empty]⟩
  exact observeFrom_bounded [] hempty calls

/-- The decisions that deny a request of any scope. -/
inductive Denying : ConfirmationDecision → ConfirmationDenial → Prop
  | deny : Denying .deny .ownerDenied
  | dismissed : Denying .dismissed .dismissed
  | timedOut : Denying .timedOut .timedOut

/-- Below the limit of the terminal records, a denial finishes a pending request. -/
theorem resolve_denied_eq (registry : CommandConfirmationRegistry) (requestId : String)
    {scope : CommandConfirmationScope} {decision : ConfirmationDecision}
    {denial : ConfirmationDenial} (hdenying : Denying decision denial)
    (hpending : registry.pending[requestId]? = some scope)
    (hready : registry.ready[requestId]? = none) (hterminal : registry.terminal[requestId]? = none)
    (hroom : registry.terminal.size < maximumTerminalConfirmations) :
    registry.resolve requestId decision =
      (.ok (.denied denial),
        { registry with
          pending := registry.pending.erase requestId
          terminal := registry.terminal.insert requestId scope.sessionId }) := by
  unfold resolve
  rw [if_neg (by omega), if_neg]
  · simp only [hpending]
    cases hdenying <;> exact finishWith_eq _ hroom
  · simp [ExtTreeMap.contains_eq_isSome_getElem?, hready, hterminal]

/-- Below it, the authorization of a ready request is consumed with its own scope. -/
theorem consumeAuthorization_eq {requestId : String} {authorization : ReadyAuthorization}
    (hready : registry.ready[requestId]? = some authorization)
    (hroom : registry.terminal.size < maximumTerminalConfirmations) :
    registry.consumeAuthorization requestId authorization.scope =
      (.ok { requestId, scope := authorization.scope, lifetime := authorization.lifetime },
        { registry with
          ready := registry.ready.erase requestId
          terminal := registry.terminal.insert requestId authorization.scope.sessionId }) := by
  unfold consumeAuthorization
  rw [if_neg (by omega)]
  simp only [hready, bne_self_eq_false, Bool.false_eq_true, if_false]
  rw [finishWith_eq]
  exact hroom

/-- Below it, a request with a new identifier is only refused because too many are open. -/
theorem register_new_eq (request : CommandConfirmationRequest)
    (hpending : registry.pending[request.requestId]? = none)
    (hready : registry.ready[request.requestId]? = none)
    (hterminal : registry.terminal[request.requestId]? = none)
    (hroom : registry.terminal.size < maximumTerminalConfirmations) :
    registry.register request =
      if maximumPendingConfirmations ≤ registry.pending.size + registry.ready.size then
        (.error .tooManyPending, registry)
      else if request.scope ∈ registry.roomSessionGrants then
        (.ok .authorizedByRoomSession,
          { registry with
            ready := registry.ready.insert request.requestId
              { scope := request.scope, lifetime := .roomSession } })
      else
        (.ok .pending,
          { registry with
            pending := registry.pending.insert request.requestId request.scope }) := by
  unfold register
  simp only [hpending]
  rw [if_neg, if_neg (by omega)]
  simp [ExtTreeMap.contains_eq_isSome_getElem?, hready, hterminal]

end Room

/-- What can be done with the requests that were admitted. -/
structure AdmittedLaws (registry : CommandConfirmationRegistry) : Prop where
  bounded : Bounded registry
  /-- Below the limit of the terminal records, every pending request can be denied. -/
  deny : registry.terminal.size < maximumTerminalConfirmations →
    ∀ requestId scope, registry.pending[requestId]? = some scope →
      (registry.resolve requestId .deny).1 = .ok (.denied .ownerDenied)
  /-- So can every ready one be consumed with its own scope. -/
  consume : registry.terminal.size < maximumTerminalConfirmations →
    ∀ requestId authorization, registry.ready[requestId]? = some authorization →
      (registry.consumeAuthorization requestId authorization.scope).1 =
        .ok { requestId, scope := authorization.scope, lifetime := authorization.lifetime }
  /-- At the limit no request is admitted, resolved, or consumed, and the registry stays as it is.
  -/
  full : registry.terminal.size = maximumTerminalConfirmations →
    (∀ requestId decision,
        registry.resolve requestId decision = (.error .terminalRegistryFull, registry)) ∧
      (∀ requestId scope, registry.consumeAuthorization requestId scope =
        (.error .terminalRegistryFull, registry)) ∧
      ∀ request, (registry.register request).2 = registry
  /-- The end of its session removes a request, whatever the limits. -/
  ended : ∀ sessionId requestId scope, scope.sessionId = sessionId →
    ¬Held (registry.withoutSession sessionId) requestId scope

/-- After every run of calls they hold. -/
theorem admitted_laws (calls : List RegistryCall) : AdmittedLaws (observe calls).2 := by
  have hbounded := observe_bounded calls
  have hexclusive := (observeFrom_recorded recorded_empty calls).exclusive
  change Exclusive (observe calls).2 at hexclusive
  generalize (observe calls).2 = registry at hexclusive hbounded ⊢
  refine ⟨hbounded, fun hroom requestId scope hpending => ?_,
    fun hroom requestId authorization hready => ?_, fun hfull => ⟨fun requestId decision => ?_,
      fun requestId scope => ?_, fun request => ?_⟩, ?_⟩
  · have hready : registry.ready[requestId]? = none :=
      Option.eq_none_iff_forall_ne_some.mpr fun _ => hexclusive.pending_ready hpending
    have hterminal : registry.terminal[requestId]? = none :=
      Option.eq_none_iff_forall_ne_some.mpr fun _ => hexclusive.pending_terminal hpending
    rw [resolve_denied_eq registry requestId .deny hpending hready hterminal hroom]
  · rw [consumeAuthorization_eq hready hroom]
  · rw [resolve, if_pos hfull.ge]
  · rw [consumeAuthorization, if_pos hfull.ge]
  · unfold register
    split
    · split <;> rfl
    · split
      · rfl
      · rw [if_pos hfull.ge]
  · rintro sessionId requestId scope rfl
    obtain ⟨hpending, hready, hterminal⟩ :=
      withoutSession_lookups registry scope.sessionId requestId
    rintro (h | ⟨lifetime, h⟩ | h)
    · exact ((hpending _).mp h).2 rfl
    · exact ((hready _).mp h).2 rfl
    · exact ((hterminal _).mp h).2 rfl

namespace Sample

/-- The identifiers that a host gives its requests. -/
def requestId (i : ℕ) : String := "mio-command-request-1-" ++ toString i

/-- Distinct numbers give distinct identifiers. -/
theorem requestId_inj {i j : ℕ} (h : requestId i = requestId j) : i = j :=
  Nat.repr_injective ((String.append_right_inj _).mp h)

/-- How many requests the sample has: as many as there can be terminal records, and two more. -/
def count : ℕ := 1026

/-- No such identifier is empty. -/
theorem requestId_ne (i : ℕ) : requestId i ≠ "" := by
  intro h
  have hpos : 0 < (requestId i).length := by
    show 0 < ("mio-command-request-1-" ++ toString i).length
    rw [String.length_append]
    exact Nat.add_pos_left (by decide) _
  rw [h] at hpos
  exact absurd hpos (by decide)

/-- All of them pass the check of an identifier. -/
theorem validIdentifier_requestId :
    ∀ i < count, validIdentifier (requestId i) maximumConfirmationIdBytes = true := by
  intro i hi
  have hbound : i < 10 ^ 4 := hi.trans_le (by decide)
  have hstart : GraphicText 22 "mio-command-request-1-" := ⟨by decide, by decide⟩
  have hnumber : GraphicText 4 (toString i) := graphicText_toString (by decide) hbound
  have hid : GraphicText maximumConfirmationIdBytes (requestId i) :=
    (hstart.append hnumber).mono (by decide)
  exact hid.boundedBytes (requestId_ne i)

/-- A scope for a push. -/
def scope : CommandConfirmationScope where
  roomId := "room-1"
  sessionId := "session-1"
  workspaceKey := "workspace-a29"
  command := .gitPush
  targetLabel := "origin/main"
  valid := by decide

/-- One of many requests for the same scope. -/
def request (i : Fin count) : CommandConfirmationRequest where
  requestId := requestId i
  scope := scope
  valid := validIdentifier_requestId i i.isLt

/-- The first requests, each registered and denied. -/
def denied : (n : ℕ) → n ≤ count → List RegistryCall
  | 0, _ => []
  | n + 1, h =>
    denied n (by omega) ++ [.register (request ⟨n, h⟩), .resolve (requestId n) .deny]

/-- What they leave: their terminal records, and nothing else. -/
structure Filled (n : ℕ) (registry : CommandConfirmationRegistry) : Prop where
  pending : registry.pending = ∅
  ready : registry.ready = ∅
  grants : registry.roomSessionGrants = ∅
  size : registry.terminal.size = n
  fresh : ∀ i, n ≤ i → registry.terminal[requestId i]? = none

/-- What a run observes goes on from what its first part has observed. -/
theorem observe_append (first rest : List RegistryCall) :
    observe (first ++ rest) = observeFrom (observe first) rest := List.foldl_append

/-- A registry without open requests, and with room for terminal records, takes a new request. -/
theorem register_eq (registry : CommandConfirmationRegistry) (i : Fin count)
    (hpending : registry.pending[requestId i]? = none)
    (hready : registry.ready[requestId i]? = none)
    (hterminal : registry.terminal[requestId i]? = none)
    (hgrants : registry.roomSessionGrants = ∅)
    (hsize : registry.terminal.size < maximumTerminalConfirmations)
    (hroom : registry.pending.size + registry.ready.size < maximumPendingConfirmations) :
    registry.register (request i) =
      (.ok .pending, { registry with pending := registry.pending.insert (requestId i) scope }) := by
  rw [register_new_eq (request i) hpending hready hterminal hsize, if_neg (by omega),
    if_neg (by simp [hgrants])]
  rfl

/-- After as many denials the registry is filled so far. -/
theorem filled_denied (n : ℕ) (h : n ≤ count) (hlimit : n ≤ maximumTerminalConfirmations) :
    Filled n (observe (denied n h)).2 := by
  -- By induction on the requests, each of which is registered and denied at once.
  induction n with
  | zero => exact ⟨rfl, rfl, rfl, by simp [denied, observe, observeFrom, empty],
      by simp [denied, observe, observeFrom, empty]⟩
  | succ n ih =>
    have hbefore := ih (by omega) (by omega)
    rw [denied, observe_append]
    generalize observe (denied n (by omega)) = observed at hbefore ⊢
    obtain ⟨trace, registry⟩ := observed
    obtain ⟨hpending, hready, hgrants, hsize, hfresh⟩ := hbefore
    dsimp only at hpending hready hgrants hsize hfresh
    have hregister := register_eq registry ⟨n, h⟩ (by simp [hpending])
      (by simp [hready]) (hfresh n le_rfl) hgrants (by omega)
      (by simp [hpending, hready, maximumPendingConfirmations])
    have hid : requestId (⟨n, h⟩ : Fin count) = requestId n := rfl
    rw [hid] at hregister
    have hresolve := resolve_denied_eq
      { registry with pending := registry.pending.insert (requestId n) scope } (requestId n) .deny
      (by simp; rfl) (by simp [hready]) (hfresh n le_rfl) (show registry.terminal.size < _ by omega)
    have hafter : (observeFrom (trace, registry)
        [.register (request ⟨n, h⟩), .resolve (requestId n) .deny]).2 =
          { registry with
            pending := (registry.pending.insert (requestId n) scope).erase (requestId n)
            terminal := registry.terminal.insert (requestId n) scope.sessionId } := by
      simp only [observeFrom, List.foldl_cons, List.foldl_nil, step, hregister, hresolve]
    rw [hafter]
    refine ⟨?_, hready, hgrants, ?_, fun i hi => ?_⟩
    -- The request was added and is gone again.
    · refine ExtTreeMap.ext_getElem? fun key => ?_
      rw [hpending, ExtTreeMap.getElem?_erase, ExtTreeMap.getElem?_insert]
      split <;> simp
    · rw [ExtTreeMap.size_insert, if_neg, hsize]
      simp [ExtTreeMap.contains_eq_isSome_getElem?, hfresh n le_rfl]
    · rw [ExtTreeMap.getElem?_insert, if_neg]
      · exact hfresh i (by omega)
      · intro heq
        have hsame := requestId_inj (LawfulEqCmp.eq_of_compare heq)
        omega

/-- One less than there can be terminal records, and two requests more, of which one is denied. -/
def overfull : List RegistryCall :=
  denied 1023 (by decide) ++
    [.register (request ⟨1023, by decide⟩), .register (request ⟨1024, by decide⟩),
      .resolve (requestId 1023) .deny]

end Sample

/-- A request that was admitted stays pending, since there is no room for its terminal record. -/
theorem admitted_request_stuck :
    (observe Sample.overfull).2.pending[Sample.requestId 1024]? = some Sample.scope ∧
      ((observe Sample.overfull).2.resolve (Sample.requestId 1024) .deny).1 =
        .error .terminalRegistryFull := by
  -- With 1023 requests denied, one terminal entry is left to fill.
  obtain ⟨hpending, hready, hgrants, hsize, hfresh⟩ :=
    Sample.filled_denied 1023 (by decide) (by decide)
  rw [Sample.overfull, Sample.observe_append]
  generalize observe (Sample.denied 1023 (by decide)) =
    observed at hpending hready hgrants hsize hfresh ⊢
  obtain ⟨trace, registry⟩ := observed
  dsimp only at hpending hready hgrants hsize hfresh
  have hne : Sample.requestId 1024 ≠ Sample.requestId 1023 :=
    fun h => absurd (Sample.requestId_inj h) (by decide)
  have hlimit : registry.terminal.size < maximumTerminalConfirmations := by
    rw [hsize]
    decide
  have hfirst := Sample.register_eq registry ⟨1023, by decide⟩
    (by simp [hpending]) (by simp [hready]) (hfresh 1023 le_rfl) hgrants hlimit
    (by simp [hpending, hready, maximumPendingConfirmations])
  -- Two more are registered before either is resolved; registering checks the terminal entries
  -- only.
  have hsecond := Sample.register_eq
    { registry with pending := registry.pending.insert (Sample.requestId 1023) Sample.scope }
    ⟨1024, by decide⟩
    (by simp [hpending, hne.symm]) (by simp [hready])
    (hfresh 1024 (by decide)) hgrants hlimit
    (by simp [hpending, hready, ExtTreeMap.size_insert, maximumPendingConfirmations])
  -- The denial of the first takes the last place.
  have hdenied := resolve_denied_eq
    { registry with
      pending := (registry.pending.insert (Sample.requestId 1023) Sample.scope).insert
        (Sample.requestId 1024) Sample.scope } (Sample.requestId 1023) .deny
    (getElem?_insert_eq_some.mpr (.inr ⟨hne.symm, getElem?_insert_eq_some.mpr (.inl ⟨rfl, rfl⟩)⟩))
    (by simp [hready]) (hfresh 1023 le_rfl) hlimit
  have hafter : (observeFrom (trace, registry)
      [.register (Sample.request ⟨1023, by decide⟩), .register (Sample.request ⟨1024, by decide⟩),
        .resolve (Sample.requestId 1023) .deny]).2 =
        { registry with
          pending := ((registry.pending.insert (Sample.requestId 1023) Sample.scope).insert
            (Sample.requestId 1024) Sample.scope).erase (Sample.requestId 1023)
          terminal :=
            registry.terminal.insert (Sample.requestId 1023) Sample.scope.sessionId } := by
    rw [observeFrom, List.foldl_cons, List.foldl_cons, List.foldl_cons, List.foldl_nil]
    simp only [step, hfirst, hsecond, hdenied]
  rw [hafter]
  constructor
  · exact getElem?_erase_eq_some.mpr ⟨hne, getElem?_insert_eq_some.mpr (.inl ⟨rfl, rfl⟩)⟩
  -- So the second, which was admitted, can no longer be resolved.
  · have hfull : maximumTerminalConfirmations ≤
        (registry.terminal.insert (Sample.requestId 1023) Sample.scope.sessionId).size := by
      rw [ExtTreeMap.size_insert, if_neg, hsize]
      · decide
      · simp [ExtTreeMap.contains_eq_isSome_getElem?, hfresh 1023 le_rfl]
    unfold resolve
    rw [if_pos hfull]

end Mio.Broker
