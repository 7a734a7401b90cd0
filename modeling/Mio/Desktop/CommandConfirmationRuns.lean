import Mio.Broker.ConfirmationRuns
import Mio.Desktop.CommandConfirmations

/-!
# Waiting for consent, among other threads

What holds in every state that actions leave, in whatever order the threads take their steps, as
long as there is room for the terminal records. A session that has ended does not come back
(`Sessions`), and a request belongs to one thread, whose entries say what it can expect
(`Requests`). `waiter_laws` is what a thread that waits for consent can rely on.

`stale_waiter_laws` is about the thread that finds the workspace of its session gone. It ends the
session by its room, and by then that can be another one.
-/

namespace Mio.Desktop.CommandConfirmations

open Library Broker Std
open RoomWorkspace (AvailableRoomWorkspace)

/-! ## What a thread holds -/

namespace Thread

/-- The session that the thread has looked up. -/
def session? : Thread → Option DesktopRoomCommandSession
  | checking _ session _ _ | ending _ session | numbering session _ _ | registering session _
  | waiting session _ => some session
  | _ => none

/-- The session that it has looked up, with the room that it looked in, until it has a number. -/
def observed? : Thread → Option (String × DesktopRoomCommandSession)
  | checking roomId session _ _ | ending roomId session => some (roomId, session)
  | _ => none

/-- The identifier of the request that it has made. -/
def requestId? : Thread → Option String
  | registering _ request | waiting _ request => some request.requestId
  | returned requestId _ => requestId
  | _ => none

end Thread

/-- The session is the one of its room. -/
def Active (state : DesktopCommandConfirmationState) (session : DesktopRoomCommandSession) : Prop :=
  state.roomSessions[session.roomId]? = some session

namespace System

/-- Moving a thread leaves the state. -/
@[simp]
theorem setThread_state (system : System) (thread : ℕ) (next : Thread) :
    (system.setThread thread next).state = system.state := rfl

/-- Moving a thread moves no other. -/
theorem setThread_threads (system : System) (thread : ℕ) (next : Thread) (other : ℕ) :
    (system.setThread thread next).threads other =
      if other = thread then next else system.threads other := by
  simp [setThread, Function.update_apply]

/-- The session is the one of its room, or a thread has looked it up. -/
def Holds (system : System) (session : DesktopRoomCommandSession) : Prop :=
  Active system.state session ∨ ∃ thread, (system.threads thread).session? = some session

/-- The session has been made. -/
def Issued (system : System) (session : DesktopRoomCommandSession) : Prop :=
  system.Holds session ∨ ∃ thread, system.threads thread = .opening session

end System

/-! ## Sessions -/

/-- Sessions are told apart by their identifiers, and one that is to be opened is new. -/
structure Sessions (processId : UInt32) (system : System) : Prop where
  room : ∀ (roomId : String) (session : DesktopRoomCommandSession),
    system.state.roomSessions[roomId]? = some session → session.roomId = roomId
  counted : system.nextSessionSequence < 2 ^ 64
  numbered : ∀ session, system.Issued session → ∃ number < system.nextSessionSequence,
    session.sessionId = sessionIdentifier processId number
  same : ∀ a b, system.Issued a → system.Issued b → a.sessionId = b.sessionId → a = b
  valid : ∀ session : DesktopRoomCommandSession, system.Issued session →
    validIdentifier session.roomId = true ∧ validIdentifier session.sessionId = true ∧
      validIdentifier session.workspaceKey = true
  opening : ∀ thread session, system.threads thread = .opening session →
    ¬system.Holds session ∧ ∀ other, system.threads other = .opening session → other = thread
  observed : ∀ thread roomId session,
    (system.threads thread).observed? = some (roomId, session) → session.roomId = roomId

section Identifiers

variable {processId : UInt32}

/-- Sessions with other numbers have other identifiers. -/
theorem sessionIdentifier_inj {i j : ℕ}
    (h : sessionIdentifier processId i = sessionIdentifier processId j) : i = j :=
  Nat.repr_injective ((String.append_right_inj _).mp h)

/-- Requests with other numbers have other identifiers. -/
theorem requestIdentifier_inj {i j : ℕ}
    (h : requestIdentifier processId i = requestIdentifier processId j) : i = j :=
  Nat.repr_injective ((String.append_right_inj _).mp h)

/-- A name with the process and a number of 64 bits. -/
theorem graphicText_name {name : String} (hname : GraphicText 20 name) {number : ℕ}
    (h : number < 2 ^ 64) :
    GraphicText 51 (name ++ toString processId.toNat ++ "-" ++ toString number) := by
  have hprocess : GraphicText 10 (toString processId.toNat) :=
    graphicText_toString (by decide) (processId.toNat_lt.trans (by decide))
  have hdash : GraphicText 1 "-" := ⟨by decide, by decide⟩
  have hnumber : GraphicText 20 (toString number) :=
    graphicText_toString (by decide) (h.trans (by decide))
  exact ((hname.append hprocess).append hdash).append hnumber

/-- The identifier of a session is valid. -/
theorem validIdentifier_sessionIdentifier {number : ℕ} (h : number < 2 ^ 64) :
    validIdentifier (sessionIdentifier processId number) = true := by
  have hname : GraphicText 20 "mio-command-session-" :=
    ⟨by decide +kernel, by decide +kernel⟩
  have hgraphic := @graphicText_name processId _ hname _ h
  unfold sessionIdentifier
  exact (hgraphic.mono (by decide)).boundedBytes (by simp)

/-- The identifier of a request is valid for the broker. -/
theorem validIdentifier_requestIdentifier {number : ℕ} (h : number < 2 ^ 64) :
    Broker.validIdentifier (requestIdentifier processId number) maximumConfirmationIdBytes =
      true := by
  have hname : GraphicText 20 "mio-command-request-" :=
    ⟨by decide +kernel, by decide +kernel⟩
  have hgraphic := @graphicText_name processId _ hname _ h
  unfold requestIdentifier
  exact (hgraphic.mono (by decide)).boundedBytes (by simp)

/-- The key of a workspace is a valid identifier. -/
theorem validIdentifier_identityKey (workspace : AvailableRoomWorkspace) :
    validIdentifier workspace.identityKey = true := by
  have hkey := RoomWorkspace.workspaceIdentityKey_graphic workspace.identity
  refine (hkey.mono (by decide)).boundedBytes ?_
  unfold RoomWorkspace.workspaceIdentityKey
  split <;> simp

end Identifiers

section Sessions

variable {processId : UInt32} {system system' : System}

/-- Nothing is opened, and what is held was held. -/
theorem Sessions.frame (h : Sessions processId system)
    (hnext : system'.nextSessionSequence = system.nextSessionSequence)
    (hrooms : ∀ (roomId : String) (session : DesktopRoomCommandSession),
      system'.state.roomSessions[roomId]? = some session →
        system.state.roomSessions[roomId]? = some session)
    (hholds : ∀ thread session, (system'.threads thread).session? = some session →
      system.Holds session)
    (hopening : ∀ thread session, system'.threads thread = .opening session →
      system.threads thread = .opening session)
    (hobserved : ∀ thread roomId session,
      (system'.threads thread).observed? = some (roomId, session) → session.roomId = roomId) :
    Sessions processId system' := by
  -- What is held or issued after the step was so before it, so every law carries over.
  have hheld : ∀ session, system'.Holds session → system.Holds session := by
    rintro session (hactive | ⟨thread, hthread⟩)
    · exact .inl (hrooms _ _ hactive)
    · exact hholds thread session hthread
  have hissued : ∀ session, system'.Issued session → system.Issued session := by
    rintro session (hholds | ⟨thread, hthread⟩)
    · exact .inl (hheld session hholds)
    · exact .inr ⟨thread, hopening thread session hthread⟩
  refine ⟨fun roomId session hroom => h.room roomId session (hrooms roomId session hroom),
    hnext ▸ h.counted, fun session hsession => ?_,
    fun a b ha hb => h.same a b (hissued a ha) (hissued b hb),
    fun session hsession => h.valid session (hissued session hsession),
    fun thread session hthread => ?_, hobserved⟩
  · rw [hnext]
    exact h.numbered session (hissued session hsession)
  · obtain ⟨hnot, hunique⟩ := h.opening thread session (hopening thread session hthread)
    exact ⟨fun hholds => hnot (hheld session hholds),
      fun other hother => hunique other (hopening other session hother)⟩

/-- A thread that opens nothing goes on, with a session that was held. -/
theorem Sessions.setThread (h : Sessions processId system) {thread : ℕ} {next : Thread}
    {state : DesktopCommandConfirmationState} {nextRequestSequence : ℕ}
    (hrooms : ∀ (roomId : String) (session : DesktopRoomCommandSession),
      state.roomSessions[roomId]? = some session →
        system.state.roomSessions[roomId]? = some session)
    (hopening : ∀ session, next ≠ .opening session)
    (hholds : ∀ session, next.session? = some session → system.Holds session)
    (hobserved : ∀ roomId session, next.observed? = some (roomId, session) →
      session.roomId = roomId) :
    Sessions processId
      ({ system with state, nextRequestSequence }.setThread thread next) := by
  refine h.frame rfl hrooms (fun other session hother => ?_) (fun other session hother => ?_)
    fun other roomId session hother => ?_
  · rw [System.setThread_threads] at hother
    split at hother
    · exact hholds session hother
    · exact .inr ⟨other, hother⟩
  · rw [System.setThread_threads] at hother
    split at hother
    · exact absurd hother (hopening session)
    · exact hother
  · rw [System.setThread_threads] at hother
    split at hother
    · exact hobserved roomId session hother
    · exact h.observed other roomId session hother

/-- A thread makes a session with a new number. -/
theorem Sessions.beginRoomSession (h : Sessions processId system) {thread : ℕ} {roomId : String}
    {workspace : AvailableRoomWorkspace} (hidle : system.threads thread = .idle) :
    Sessions processId (system.beginRoomSession processId thread roomId workspace) := by
  unfold System.beginRoomSession
  split_ifs with hroom
  · exact h
  rcases hnext : checkedSucc system.nextSessionSequence with _ | next
  · exact h
  obtain ⟨hcounted, rfl⟩ : system.nextSessionSequence + 1 < 2 ^ 64 ∧
      system.nextSessionSequence + 1 = next := by
    unfold checkedSucc at hnext
    split at hnext
    · exact ⟨by assumption, Option.some.inj hnext⟩
    · cases hnext
  dsimp only
  generalize hsession : DesktopRoomCommandSession.mk roomId
    (sessionIdentifier processId system.nextSessionSequence) workspace.identityKey = session
  -- The other sessions have smaller numbers.
  have hnew : ∀ other, system.Issued other → other.sessionId ≠ session.sessionId := by
    intro other hother heq
    obtain ⟨number, hlt, hnumber⟩ := h.numbered other hother
    rw [hnumber, ← hsession] at heq
    have := sessionIdentifier_inj heq
    omega
  have hthreads : ∀ other session', (({ system with
      nextSessionSequence := system.nextSessionSequence + 1 } : System).setThread thread
        (.opening session)).threads other = .opening session' →
      other = thread ∧ session' = session ∨ system.threads other = .opening session' := by
    intro other session' hother
    rw [System.setThread_threads] at hother
    split at hother
    · exact .inl ⟨by assumption, (Thread.opening.inj hother).symm⟩
    · exact .inr hother
  have hheld : ∀ session', (({ system with
      nextSessionSequence := system.nextSessionSequence + 1 } : System).setThread thread
        (.opening session)).Holds session' → system.Holds session' := by
    rintro session' (hactive | ⟨other, hother⟩)
    · exact .inl hactive
    · rw [System.setThread_threads] at hother
      split at hother
      · simp [Thread.session?] at hother
      · exact .inr ⟨other, hother⟩
  have hissued : ∀ session', (({ system with
      nextSessionSequence := system.nextSessionSequence + 1 } : System).setThread thread
        (.opening session)).Issued session' → session' = session ∨ system.Issued session' := by
    rintro session' (hholds | ⟨other, hother⟩)
    · exact .inr (.inl (hheld session' hholds))
    · rcases hthreads other session' hother with ⟨-, rfl⟩ | hother
      · exact .inl rfl
      · exact .inr (.inr ⟨other, hother⟩)
  refine ⟨h.room, hcounted, fun session' hsession' => ?_, fun a b ha hb hid => ?_,
    fun session' hsession' => ?_, fun other session' hother => ?_,
    fun other observedId session' hother => ?_⟩
  · rcases hissued session' hsession' with rfl | hsession'
    · exact ⟨system.nextSessionSequence, Nat.lt_succ_self _, by rw [← hsession]⟩
    · obtain ⟨number, hlt, hnumber⟩ := h.numbered session' hsession'
      exact ⟨number, Nat.lt_succ_of_lt hlt, hnumber⟩
  · rcases hissued a ha with hsame | ha' <;> rcases hissued b hb with hsame' | hb'
    · rw [hsame, hsame']
    · exact absurd (hsame ▸ hid.symm) (hnew b hb')
    · exact absurd (hsame' ▸ hid) (hnew a ha')
    · exact h.same a b ha' hb' hid
  · rcases hissued session' hsession' with rfl | hsession'
    · subst hsession
      exact ⟨by simpa using hroom, validIdentifier_sessionIdentifier h.counted,
        validIdentifier_identityKey workspace⟩
    · exact h.valid session' hsession'
  · rcases hthreads other session' hother with ⟨rfl, rfl⟩ | hbefore
    · refine ⟨fun hholds => hnew _ (.inl (hheld _ hholds)) rfl, fun another hanother => ?_⟩
      rcases hthreads another _ hanother with ⟨rfl, -⟩ | hanother
      · rfl
      · exact absurd rfl (hnew _ (.inr ⟨another, hanother⟩))
    · obtain ⟨hnot, hunique⟩ := h.opening other session' hbefore
      refine ⟨fun hholds => hnot (hheld _ hholds), fun another hanother => ?_⟩
      rcases hthreads another _ hanother with ⟨rfl, rfl⟩ | hanother
      · exact absurd rfl (hnew _ (.inr ⟨other, hbefore⟩))
      · exact hunique another hanother
  · rw [System.setThread_threads] at hother
    split at hother
    · simp [Thread.observed?] at hother
    · exact h.observed other observedId session' hother

end Sessions

/-! ## Requests -/

/-- A scope of the session. -/
structure InSession (scope : CommandConfirmationScope) (session : DesktopRoomCommandSession) :
    Prop where
  roomId : scope.roomId = session.roomId
  sessionId : scope.sessionId = session.sessionId
  workspaceKey : scope.workspaceKey = session.workspaceKey

/-- Nothing is left of a request but its terminal record. -/
structure Clear (state : DesktopCommandConfirmationState) (requestId : String) : Prop where
  pending : state.registry.pending[requestId]? = none
  ready : state.registry.ready[requestId]? = none
  waiting : state.waitingSessions[requestId]? = none
  resolution : state.resolutions[requestId]? = none

/-- What the entries of a request are while its thread waits, by its resolution. -/
inductive Awaited (state : DesktopCommandConfirmationState) (session : DesktopRoomCommandSession)
    (request : CommandConfirmationRequest) : Option DesktopCommandWaitResolution → Prop
  | undecided (hpending : state.registry.pending[request.requestId]? = some request.scope)
    (hactive : Active state session) : Awaited state session request none
  | allowed (lifetime : AuthorizationLifetime)
    (hready : state.registry.ready[request.requestId]? = some { scope := request.scope, lifetime })
    (hactive : Active state session) :
    Awaited state session request (some (.resolved .authorizationReady))
  | denied (denial : ConfirmationDenial)
    (hpending : state.registry.pending[request.requestId]? = none)
    (hready : state.registry.ready[request.requestId]? = none) (hactive : Active state session) :
    Awaited state session request (some (.resolved (.denied denial)))
  | ended (hpending : state.registry.pending[request.requestId]? = none)
    (hready : state.registry.ready[request.requestId]? = none) (hactive : ¬Active state session) :
    Awaited state session request (some .roomSessionEnded)

/-- A request belongs to one thread. -/
structure Requests (processId : UInt32) (system : System) : Prop where
  exclusive : Exclusive system.state.registry
  counted : system.nextRequestSequence < 2 ^ 64
  numbered : ∀ requestId, (∃ thread, (system.threads thread).requestId? = some requestId) ∨
    system.state.registry.terminal[requestId]? ≠ none →
      ∃ number < system.nextRequestSequence, requestId = requestIdentifier processId number
  unique : ∀ thread other requestId, (system.threads thread).requestId? = some requestId →
    (system.threads other).requestId? = some requestId → thread = other
  clear : ∀ requestId, (∀ thread session request, system.threads thread = .waiting session request →
    request.requestId ≠ requestId) → Clear system.state requestId
  unregistered : ∀ thread session request, system.threads thread = .registering session request →
    system.state.registry.terminal[request.requestId]? = none
  inSession : ∀ thread session request, system.threads thread = .registering session request ∨
    system.threads thread = .waiting session request → InSession request.scope session
  waiting : ∀ thread session request, system.threads thread = .waiting session request →
    system.state.waitingSessions[request.requestId]? = some session.sessionId ∧
      Awaited system.state session request system.state.resolutions[request.requestId]?

/-- The states have the same sessions, and the same entries of all other requests. -/
structure Elsewhere (requestId : String) (state state' : DesktopCommandConfirmationState) :
    Prop where
  rooms : state'.roomSessions = state.roomSessions
  pending : ∀ other ≠ requestId, state'.registry.pending[other]? = state.registry.pending[other]?
  ready : ∀ other ≠ requestId, state'.registry.ready[other]? = state.registry.ready[other]?
  terminal : ∀ other ≠ requestId, state'.registry.terminal[other]? = state.registry.terminal[other]?
  waiting : ∀ other ≠ requestId, state'.waitingSessions[other]? = state.waitingSessions[other]?
  resolution : ∀ other ≠ requestId, state'.resolutions[other]? = state.resolutions[other]?

section Requests

variable {processId : UInt32} {system : System} {state' : DesktopCommandConfirmationState}

/-- The same sessions are active in both states. -/
theorem Elsewhere.active {requestId : String} {state : DesktopCommandConfirmationState}
    (h : Elsewhere requestId state state') (session : DesktopRoomCommandSession) :
    Active state' session ↔ Active state session := by
  unfold Active
  rw [h.rooms]

/-- What is awaited depends on the entries of the request and on whether its session is active. -/
theorem Awaited.congr {state : DesktopCommandConfirmationState}
    {session : DesktopRoomCommandSession}
    {request : CommandConfirmationRequest} {resolution : Option DesktopCommandWaitResolution}
    (h : Awaited state session request resolution)
    (hpending : state'.registry.pending[request.requestId]? =
      state.registry.pending[request.requestId]?)
    (hready : state'.registry.ready[request.requestId]? = state.registry.ready[request.requestId]?)
    (hactive : Active state' session ↔ Active state session) :
    Awaited state' session request resolution := by
  cases h with
  | undecided h₁ h₂ => exact .undecided (hpending.trans h₁) (hactive.mpr h₂)
  | allowed lifetime h₁ h₂ => exact .allowed lifetime (hready.trans h₁) (hactive.mpr h₂)
  | denied denial h₁ h₂ h₃ =>
    exact .denied denial (hpending.trans h₁) (hready.trans h₂) (hactive.mpr h₃)
  | ended h₁ h₂ h₃ => exact .ended (hpending.trans h₁) (hready.trans h₂) (h₃ ∘ hactive.mp)

/-- A thread that neither waits nor has a request to register goes on without one, or returns. -/
theorem Requests.setThread (h : Requests processId system) {thread : ℕ} {next : Thread}
    {nextSessionSequence nextRequestSequence : ℕ}
    (hnumber : system.nextRequestSequence ≤ nextRequestSequence)
    (hcounted : nextRequestSequence < 2 ^ 64)
    (hbefore : ∀ session request, system.threads thread ≠ .waiting session request)
    (hnext : ∀ session request, next ≠ .waiting session request ∧
      next ≠ .registering session request)
    (hid : ∀ requestId, next.requestId? = some requestId →
      (system.threads thread).requestId? = some requestId) :
    Requests processId
      ({ system with nextSessionSequence, nextRequestSequence }.setThread thread next) := by
  -- Nothing about another thread changes, and this one waits for no more than it did.
  have hids : ∀ other requestId, ((({ system with
      nextSessionSequence, nextRequestSequence } : System).setThread thread next).threads
        other).requestId? = some requestId →
      (system.threads other).requestId? = some requestId := by
    intro other requestId hother
    rw [System.setThread_threads] at hother
    split at hother
    · next heq => exact heq ▸ hid requestId hother
    · exact hother
  have hwaiting : ∀ other session request, (({ system with
      nextSessionSequence, nextRequestSequence } : System).setThread thread next).threads other =
        .waiting session request ↔ system.threads other = .waiting session request := by
    intro other session request
    rw [System.setThread_threads]
    split
    · next heq => exact heq ▸ iff_of_false (hnext session request).1 (hbefore session request)
    · exact Iff.rfl
  have hregistering : ∀ other session request, (({ system with
      nextSessionSequence, nextRequestSequence } : System).setThread thread next).threads other =
        .registering session request → system.threads other = .registering session request := by
    intro other session request hother
    rw [System.setThread_threads] at hother
    split at hother
    · exact absurd hother (hnext session request).2
    · exact hother
  refine ⟨h.exclusive, hcounted, fun requestId hused => ?_, fun other another requestId ho ha => ?_,
    fun requestId hnone => ?_, fun other session request hother => ?_,
    fun other session request hother => ?_, fun other session request hother => ?_⟩
  · obtain ⟨number, hlt, hrequest⟩ := h.numbered requestId
      (hused.imp_left fun ⟨other, hother⟩ => ⟨other, hids other requestId hother⟩)
    exact ⟨number, hlt.trans_le hnumber, hrequest⟩
  · exact h.unique other another requestId (hids other requestId ho) (hids another requestId ha)
  · exact h.clear requestId fun other session request hother =>
      hnone other session request ((hwaiting other session request).mpr hother)
  · exact h.unregistered other session request (hregistering other session request hother)
  · exact h.inSession other session request (hother.imp (hregistering other session request)
      (hwaiting other session request).mp)
  · exact h.waiting other session request ((hwaiting other session request).mp hother)

/-- A thread with a request goes on, and only the entries of its request change. -/
theorem Requests.change (h : Requests processId system) {thread : ℕ} {next : Thread}
    {requestId : String} (hbefore : (system.threads thread).requestId? = some requestId)
    (hafter : next.requestId? = some requestId)
    (hregistering : ∀ session request, next ≠ .registering session request)
    (hstate : Elsewhere requestId system.state state') (hexclusive : Exclusive state'.registry)
    (hclear : (∀ session request, next ≠ .waiting session request) → Clear state' requestId)
    (hwaiting : ∀ session request, next = .waiting session request →
      InSession request.scope session ∧
        state'.waitingSessions[requestId]? = some session.sessionId ∧
          Awaited state' session request state'.resolutions[requestId]?) :
    Requests processId ({ system with state := state' }.setThread thread next) := by
  have hids : ∀ other id, ((({ system with
      state := state' } : System).setThread thread next).threads other).requestId? = some id ↔
      (system.threads other).requestId? = some id := by
    intro other id
    rw [System.setThread_threads]
    split
    · next heq => rw [heq, hafter, hbefore]
    · exact Iff.rfl
  -- The requests of the other threads are others.
  have hothers : ∀ other id, other ≠ thread → (system.threads other).requestId? = some id →
      id ≠ requestId := by
    rintro other id hne hother rfl
    exact hne (h.unique other thread id hother hbefore)
  refine ⟨hexclusive, h.counted, fun id hused => ?_, fun other another id ho ha => ?_,
    fun id hnone => ?_, fun other session request hother => ?_,
    fun other session request hother => ?_, fun other session request hother => ?_⟩
  · by_cases hid : id = requestId
    · exact h.numbered id (.inl ⟨thread, hid ▸ hbefore⟩)
    · refine h.numbered id (hused.imp (fun ⟨other, hother⟩ => ⟨other, (hids other id).mp hother⟩)
        fun hterminal => ?_)
      rwa [System.setThread_state, hstate.terminal id hid] at hterminal
  · exact h.unique other another id ((hids other id).mp ho) ((hids another id).mp ha)
  · by_cases hid : id = requestId
    · subst hid
      refine hclear fun session request hnext => ?_
      subst hnext
      refine hnone thread session request ?_ (Option.some.inj hafter)
      rw [System.setThread_threads, if_pos rfl]
    · have hclear := h.clear id fun other session request hother heq => by
        refine hnone other session request ?_ heq
        rw [System.setThread_threads, if_neg]
        · exact hother
        · rintro rfl
          rw [hother] at hbefore
          exact hid (heq.symm.trans (Option.some.inj hbefore))
      exact ⟨(hstate.pending id hid).trans hclear.pending, (hstate.ready id hid).trans hclear.ready,
        (hstate.waiting id hid).trans hclear.waiting,
        (hstate.resolution id hid).trans hclear.resolution⟩
  · rw [System.setThread_threads] at hother
    split at hother
    · exact absurd hother (hregistering session request)
    · next hne =>
      have hid := hothers other request.requestId hne (by rw [hother]; rfl)
      exact (hstate.terminal _ hid).trans (h.unregistered other session request hother)
  · rw [System.setThread_threads] at hother
    split at hother
    · exact (hwaiting session request (hother.resolve_left (hregistering session request))).1
    · exact h.inSession other session request hother
  · rw [System.setThread_threads] at hother
    split at hother
    · subst hother
      obtain rfl : request.requestId = requestId := Option.some.inj hafter
      exact (hwaiting session request rfl).2
    · next hne =>
      have hid := hothers other request.requestId hne (by rw [hother]; rfl)
      obtain ⟨hsession, hawaited⟩ := h.waiting other session request hother
      refine ⟨(hstate.waiting _ hid).trans hsession, ?_⟩
      rw [System.setThread_state, hstate.resolution _ hid]
      exact hawaited.congr (hstate.pending _ hid) (hstate.ready _ hid) (hstate.active session)

/-- A scope of the session is only refused for its target label. -/
theorem scope_cases {session : DesktopRoomCommandSession}
    (hvalid : validIdentifier session.roomId = true ∧ validIdentifier session.sessionId = true ∧
      validIdentifier session.workspaceKey = true) (command : ActionTimeCommand)
    (targetLabel : String) :
    (∃ scope, session.scope command targetLabel = .ok scope ∧ InSession scope session) ∨
      validTargetLabel targetLabel = false ∧
        session.scope command targetLabel = .error invalid := by
  obtain ⟨hroom, hsession, hkey⟩ := hvalid
  unfold DesktopRoomCommandSession.scope CommandConfirmationScope.new
  split
  · exact .inl ⟨_, rfl, rfl, rfl, rfl⟩
  · next hscope =>
    refine .inr ⟨?_, rfl⟩
    change validIdentifier session.roomId = true at hroom
    simpa [validScope, show Broker.validIdentifier session.roomId maximumScopeIdBytes =
      true from hroom,
      show Broker.validIdentifier session.sessionId maximumScopeIdBytes = true from hsession,
      show Broker.validIdentifier session.workspaceKey maximumScopeIdBytes = true from hkey]
      using hscope

/-- Taking a number leads to a request with it, or to a refusal. -/
theorem numberRequest_cases (hcounted : system.nextRequestSequence < 2 ^ 64) {thread : ℕ}
    {session : DesktopRoomCommandSession} {command : ActionTimeCommand} {targetLabel : String}
    (hvalid : validIdentifier session.roomId = true ∧ validIdentifier session.sessionId = true ∧
      validIdentifier session.workspaceKey = true) :
    (system.nextRequestSequence + 1 = 2 ^ 64 ∧
      system.numberRequest processId thread session command targetLabel =
        system.setThread thread (.returned none (.error unavailable))) ∨
    system.nextRequestSequence + 1 < 2 ^ 64 ∧
      ((validTargetLabel targetLabel = false ∧
        system.numberRequest processId thread session command targetLabel =
          { system with nextRequestSequence := system.nextRequestSequence + 1 }.setThread thread
            (.returned none (.error invalid))) ∨
      ∃ request : CommandConfirmationRequest,
        request.requestId = requestIdentifier processId system.nextRequestSequence ∧
        InSession request.scope session ∧
        system.numberRequest processId thread session command targetLabel =
          { system with nextRequestSequence := system.nextRequestSequence + 1 }.setThread thread
            (.registering session request)) := by
  unfold System.numberRequest checkedSucc
  -- The number must have a successor, and the label must be valid; then there is a request.
  by_cases hlast : system.nextRequestSequence + 1 < 2 ^ 64
  · rw [if_pos hlast]
    refine .inr ⟨hlast, ?_⟩
    dsimp only
    rcases scope_cases hvalid command targetLabel with ⟨scope, hscope, hin⟩ | ⟨hlabel, hscope⟩
    · have hid : Broker.validIdentifier (requestIdentifier processId system.nextRequestSequence)
          maximumConfirmationIdBytes = true := validIdentifier_requestIdentifier hcounted
      refine .inr ⟨⟨_, scope, hid⟩, rfl, hin, ?_⟩
      simp only [hscope, CommandConfirmationRequest.new, dif_pos hid]
    · refine .inl ⟨hlabel, ?_⟩
      simp only [hscope]
  · rw [if_neg hlast]
    exact .inl ⟨by omega, rfl⟩

/-- A request with a new number is made. -/
theorem Requests.number (h : Requests processId system) {thread : ℕ}
    {session : DesktopRoomCommandSession} {request : CommandConfirmationRequest}
    (hcounted : system.nextRequestSequence + 1 < 2 ^ 64)
    (hbefore : ∀ session request, system.threads thread ≠ .waiting session request)
    (hid : request.requestId = requestIdentifier processId system.nextRequestSequence)
    (hin : InSession request.scope session) :
    Requests processId
      ({ system with nextRequestSequence := system.nextRequestSequence + 1 }.setThread thread
        (.registering session request)) := by
  -- The identifiers so far have smaller numbers.
  have hnew : ∀ number < system.nextRequestSequence,
      request.requestId ≠ requestIdentifier processId number := by
    intro number hlt heq
    have := requestIdentifier_inj (hid.symm.trans heq)
    omega
  have hids : ∀ other requestId, ((({ system with
      nextRequestSequence := system.nextRequestSequence + 1 } : System).setThread thread
        (.registering session request)).threads other).requestId? = some requestId →
      other = thread ∧ requestId = request.requestId ∨
        (system.threads other).requestId? = some requestId := by
    intro other requestId hother
    rw [System.setThread_threads] at hother
    split at hother
    · exact .inl ⟨by assumption, (Option.some.inj hother).symm⟩
    · exact .inr hother
  have hwaiting : ∀ other session' request', (({ system with
      nextRequestSequence := system.nextRequestSequence + 1 } : System).setThread thread
        (.registering session request)).threads other = .waiting session' request' ↔
      system.threads other = .waiting session' request' := by
    intro other session' request'
    rw [System.setThread_threads]
    split
    · next heq => exact heq ▸ iff_of_false (by simp) (hbefore session' request')
    · exact Iff.rfl
  have hfresh : ∀ other, (system.threads other).requestId? ≠ some request.requestId := by
    intro other hother
    obtain ⟨number, hlt, hnumber⟩ := h.numbered _ (.inl ⟨other, hother⟩)
    exact hnew number hlt hnumber
  refine ⟨h.exclusive, hcounted, fun requestId hused => ?_, fun other another requestId ho ha => ?_,
    fun requestId hnone => ?_, fun other session' request' hother => ?_,
    fun other session' request' hother => ?_, fun other session' request' hother => ?_⟩
  · by_cases hsame : requestId = request.requestId
    · exact ⟨_, Nat.lt_succ_self _, hsame.trans hid⟩
    · obtain ⟨number, hlt, hnumber⟩ := h.numbered requestId (hused.imp_left
        fun ⟨other, hother⟩ => ⟨other, (hids other requestId hother).resolve_left
          fun heq => hsame heq.2⟩)
      exact ⟨number, Nat.lt_succ_of_lt hlt, hnumber⟩
  · rcases hids other requestId ho with ⟨hthread, hsame⟩ | ho' <;>
      rcases hids another requestId ha with ⟨hthread', hsame'⟩ | ha'
    · exact hthread.trans hthread'.symm
    · exact absurd (hsame ▸ ha') (hfresh another)
    · exact absurd (hsame' ▸ ho') (hfresh other)
    · exact h.unique other another requestId ho' ha'
  · exact h.clear requestId fun other session' request' hother =>
      hnone other session' request' ((hwaiting other session' request').mpr hother)
  · rw [System.setThread_threads] at hother
    split at hother
    · obtain ⟨-, rfl⟩ := Thread.registering.inj hother
      by_contra hterminal
      obtain ⟨number, hlt, hnumber⟩ := h.numbered _ (.inr hterminal)
      exact hnew number hlt hnumber
    · exact h.unregistered other session' request' hother
  · rw [System.setThread_threads] at hother
    split at hother
    · obtain ⟨rfl, rfl⟩ := Thread.registering.inj (hother.resolve_right (by simp))
      exact hin
    · exact h.inSession other session' request' hother
  · exact h.waiting other session' request' ((hwaiting other session' request').mp hother)

end Requests

/-! ## The end of a session -/

section Ends

variable {processId : UInt32} {system : System}

/-- Inserting one value at several keys. -/
theorem getElem?_foldl_insert {α : Type} (keys : List String) (value : α)
    (map : ExtTreeMap String α) (key : String) :
    (keys.foldl (fun map key => map.insert key value) map)[key]? =
      if key ∈ keys then some value else map[key]? := by
  induction keys generalizing map with
  | nil => simp
  | cons first keys ih =>
    rw [List.foldl_cons, ih, ExtTreeMap.getElem?_insert]
    by_cases hkeys : key ∈ keys
    · simp [hkeys]
    · by_cases hfirst : first = key
      · subst hfirst
        simp [hkeys]
      · simp [hkeys, hfirst, Ne.symm hfirst]

/-- The end of a session is the resolution of its requests that are waited for. -/
theorem endSessionInState_resolutions (sessionId : String) (state : DesktopCommandConfirmationState)
    (requestId : String) :
    (state.endSessionInState sessionId).2.resolutions[requestId]? =
      if state.waitingSessions[requestId]? = some sessionId then some .roomSessionEnded
      else state.resolutions[requestId]? := by
  unfold DesktopCommandConfirmationState.endSessionInState
  dsimp only
  rw [getElem?_foldl_insert]
  congr 1
  simp [ExtTreeMap.mem_toList_iff_getElem?_eq_some]

/-- The state without the session of a room. -/
def DesktopCommandConfirmationState.withoutRoom (roomId : String)
    (state : DesktopCommandConfirmationState) : DesktopCommandConfirmationState :=
  match state.roomSessions[roomId]? with
  | none => state
  | some session =>
    ({ state with roomSessions := state.roomSessions.erase roomId }.endSessionInState
      session.sessionId).2

/-- For a valid room the end of its session takes it away. -/
theorem endRoomSession_eq {roomId : String} (hvalid : validIdentifier roomId = true)
    (state : DesktopCommandConfirmationState) :
    ∃ removed, state.endRoomSession roomId = (.ok removed, state.withoutRoom roomId) := by
  unfold DesktopCommandConfirmationState.endRoomSession DesktopCommandConfirmationState.withoutRoom
  rw [hvalid]
  rcases state.roomSessions[roomId]? with _ | session
  · exact ⟨0, rfl⟩
  · exact ⟨_, rfl⟩

/-- Replacing a session takes the old one away and puts the new one in. -/
theorem replaceRoomSession_eq (session : DesktopRoomCommandSession)
    (state : DesktopCommandConfirmationState) :
    state.replaceRoomSession session =
      { state.withoutRoom session.roomId with
        roomSessions :=
          (state.withoutRoom session.roomId).roomSessions.insert session.roomId session } := by
  unfold DesktopCommandConfirmationState.replaceRoomSession
    DesktopCommandConfirmationState.withoutRoom
  rcases hroom : state.roomSessions[session.roomId]? with _ | previous
  · have herase : state.roomSessions.erase session.roomId = state.roomSessions := by
      refine ExtTreeMap.ext_getElem? fun key => ?_
      rw [ExtTreeMap.getElem?_erase]
      split
      · next heq =>
        obtain rfl := LawfulEqCmp.eq_of_compare heq
        exact hroom.symm
      · rfl
    simp only [herase]
  · rfl

/-- The room has no session then, and the others have theirs. -/
theorem withoutRoom_rooms (roomId : String) (state : DesktopCommandConfirmationState)
    (other : String) (session : DesktopRoomCommandSession) :
    (state.withoutRoom roomId).roomSessions[other]? = some session ↔
      other ≠ roomId ∧ state.roomSessions[other]? = some session := by
  unfold DesktopCommandConfirmationState.withoutRoom
  rcases hroom : state.roomSessions[roomId]? with _ | ended
  · dsimp only
    refine ⟨fun h => ⟨?_, h⟩, And.right⟩
    rintro rfl
    rw [hroom] at h
    cases h
  · exact getElem?_erase_eq_some

/-- A thread's entries are those of its request. -/
theorem Awaited.entries {state : DesktopCommandConfirmationState}
    {session : DesktopRoomCommandSession} {request : CommandConfirmationRequest}
    {resolution : Option DesktopCommandWaitResolution}
    (h : Awaited state session request resolution) (hexclusive : Exclusive state.registry) :
    (∀ scope, state.registry.pending[request.requestId]? = some scope → scope = request.scope) ∧
      ∀ authorization, state.registry.ready[request.requestId]? = some authorization →
        authorization.scope = request.scope := by
  have hpr := @hexclusive.pending_ready
  cases h with
  | undecided hpending =>
    exact ⟨fun scope hscope => by simpa [hpending, eq_comm] using hscope,
      fun authorization hready => absurd hready (hpr hpending)⟩
  | allowed lifetime hready =>
    refine ⟨fun scope hscope => absurd hready (hpr hscope), fun authorization hauthorization => ?_⟩
    obtain rfl : _ = authorization := Option.some.inj (hready.symm.trans hauthorization)
    rfl
  | denied _ hpending hready | ended hpending hready =>
    exact ⟨fun scope hscope => by simp [hpending] at hscope,
      fun authorization hauthorization => by simp [hready] at hauthorization⟩

/-- Taking a room's session away keeps the sessions apart. -/
theorem Sessions.withoutRoom (h : Sessions processId system) (roomId : String) :
    Sessions processId { system with state := system.state.withoutRoom roomId } := by
  refine h.frame rfl (fun other session hother => ?_)
    (fun thread session hthread => .inr ⟨thread, hthread⟩) (fun thread session hthread => hthread)
    h.observed
  exact ((withoutRoom_rooms roomId system.state other session).mp hother).2

/-- The threads that wait for a request of the session will find that it has ended, and nothing
changes for the others. -/
theorem Requests.withoutRoom (h : Requests processId system) (hsessions : Sessions processId system)
    (roomId : String) :
    Requests processId { system with state := system.state.withoutRoom roomId } := by
  -- Without a session for the room, its end changes nothing.
  rcases hroom : system.state.roomSessions[roomId]? with _ | ended
  · have hsame : system.state.withoutRoom roomId = system.state := by
      unfold DesktopCommandConfirmationState.withoutRoom
      rw [hroom]
    rw [hsame]
    exact h
  have hrooms := withoutRoom_rooms roomId system.state
  have hregistry : (system.state.withoutRoom roomId).registry =
      system.state.registry.withoutSession ended.sessionId := by
    unfold DesktopCommandConfirmationState.withoutRoom
    rw [hroom]
    rfl
  have hwaits : (system.state.withoutRoom roomId).waitingSessions =
    system.state.waitingSessions := by
    unfold DesktopCommandConfirmationState.withoutRoom
    rw [hroom]
    rfl
  have hresolutions : ∀ requestId : String,
      (system.state.withoutRoom roomId).resolutions[requestId]? =
        if system.state.waitingSessions[requestId]? = some ended.sessionId then
          some .roomSessionEnded
        else system.state.resolutions[requestId]? := by
    intro requestId
    unfold DesktopCommandConfirmationState.withoutRoom
    rw [hroom]
    exact endSessionInState_resolutions _ _ _
  have hlookups := withoutSession_lookups system.state.registry ended.sessionId
  generalize system.state.withoutRoom roomId = state' at *
  -- What is left of the terminal entries was there before.
  have hterminal : ∀ requestId : String, state'.registry.terminal[requestId]? ≠ none →
      system.state.registry.terminal[requestId]? ≠ none := by
    intro requestId hsome
    obtain ⟨sessionId, hsessionId⟩ := Option.ne_none_iff_exists'.mp hsome
    rw [hregistry] at hsessionId
    simp [((hlookups requestId).2.2 sessionId).mp hsessionId]
  refine ⟨?_, h.counted, fun requestId hused => h.numbered requestId
    (hused.imp_right (hterminal requestId)), h.unique, fun requestId hnone => ?_,
    fun thread session request hthread => ?_, h.inSession, fun thread session request hthread => ?_⟩
  · rw [hregistry]
    exact (RegistryStep.endSession ended.sessionId 0).exclusive h.exclusive
  · have hclear := h.clear requestId hnone
    refine ⟨?_, ?_, by rw [hwaits]; exact hclear.waiting, ?_⟩
    · rw [hregistry]
      refine Option.eq_none_iff_forall_ne_some.mpr fun scope hscope => ?_
      exact absurd hclear.pending (by simp [((hlookups requestId).1 scope).mp hscope])
    · rw [hregistry]
      refine Option.eq_none_iff_forall_ne_some.mpr fun authorization hauthorization => ?_
      exact absurd hclear.ready
        (by simp [((hlookups requestId).2.1 authorization).mp hauthorization])
    · rw [hresolutions, if_neg (by simp [hclear.waiting])]
      exact hclear.resolution
  · by_contra hsome
    exact hterminal _ hsome (h.unregistered thread session request hthread)
  · obtain ⟨hsession, hawaited⟩ := h.waiting thread session request hthread
    have hin := h.inSession thread session request (.inr hthread)
    obtain ⟨hpending, hready⟩ := hawaited.entries h.exclusive
    obtain ⟨hpending', hready', -⟩ := hlookups request.requestId
    rw [← hregistry] at hpending' hready'
    refine ⟨by rw [hwaits]; exact hsession, ?_⟩
    have hheld : system.Issued session := .inl (.inr ⟨thread, by rw [hthread]; rfl⟩)
    have hended : system.Issued ended :=
      .inl (.inl (by rw [Active, hsessions.room roomId ended hroom]; exact hroom))
    rw [hresolutions, hsession]
    -- A waiter of the session that ends is told so, and any other finds what it has waited for.
    by_cases hid : session.sessionId = ended.sessionId
    · obtain rfl := hsessions.same session ended hheld hended hid
      rw [if_pos rfl]
      refine .ended ?_ ?_ fun hactive => ((hrooms _ _).mp hactive).1 (hsessions.room roomId _ hroom)
      · refine Option.eq_none_iff_forall_ne_some.mpr fun scope hscope => ?_
        obtain ⟨hbefore, hother⟩ := (hpending' scope).mp hscope
        exact hother (hpending scope hbefore ▸ hin.sessionId)
      · refine Option.eq_none_iff_forall_ne_some.mpr fun authorization hauthorization => ?_
        obtain ⟨hbefore, hother⟩ := (hready' authorization).mp hauthorization
        exact hother (hready authorization hbefore ▸ hin.sessionId)
    · rw [if_neg (by simpa using hid)]
      refine hawaited.congr (Option.ext fun scope => ?_) (Option.ext fun authorization => ?_) ?_
      · rw [hpending']
        refine and_iff_left_of_imp fun hscope => ?_
        rw [hpending scope hscope, hin.sessionId]
        exact hid
      · rw [hready']
        refine and_iff_left_of_imp fun hauthorization => ?_
        rw [hready authorization hauthorization, hin.sessionId]
        exact hid
      · unfold Active
        rw [hrooms]
        refine and_iff_right_of_imp fun hactive hsame => hid ?_
        rw [hsame, hroom] at hactive
        rw [Option.some.inj hactive]

/-- The session that a thread was opening becomes the one of its room. -/
theorem Sessions.openSession (h : Sessions processId system) {thread : ℕ}
    {session : DesktopRoomCommandSession} (hthread : system.threads thread = .opening session)
    (hroom : system.state.roomSessions[session.roomId]? = none) :
    Sessions processId ({ system with state := { system.state with
      roomSessions := system.state.roomSessions.insert session.roomId session } }.setThread thread
        .idle) := by
  -- The session was being opened by this thread alone, and now it is the room's.
  obtain ⟨hnew, hunique⟩ := h.opening thread session hthread
  have hissue : system.Issued session := .inr ⟨thread, hthread⟩
  generalize hsystem : System.setThread thread .idle { system with state := { system.state with
    roomSessions := system.state.roomSessions.insert session.roomId session } } = system'
  have hthreads : ∀ other, system'.threads other =
      if other = thread then .idle else system.threads other := by
    intro other
    rw [← hsystem, System.setThread_threads]
  have hrooms : ∀ (roomId : String) (other : DesktopRoomCommandSession),
      system'.state.roomSessions[roomId]? = some other ↔
        roomId = session.roomId ∧ other = session ∨
          roomId ≠ session.roomId ∧ system.state.roomSessions[roomId]? = some other := by
    intro roomId other
    rw [← hsystem]
    exact getElem?_insert_eq_some
  have hopening : ∀ other session', system'.threads other = .opening session' →
      other ≠ thread ∧ system.threads other = .opening session' := by
    intro other session' hother
    rw [hthreads] at hother
    split at hother
    · cases hother
    · exact ⟨by assumption, hother⟩
  -- What is held now is the new session, or was held before.
  have hheld : ∀ session', system'.Holds session' → session' = session ∨ system.Holds session' := by
    rintro session' (hactive | ⟨other, hother⟩)
    · rcases (hrooms _ _).mp hactive with ⟨-, rfl⟩ | ⟨-, hactive⟩
      · exact .inl rfl
      · exact .inr (.inl hactive)
    · rw [hthreads] at hother
      split at hother
      · simp [Thread.session?] at hother
      · exact .inr (.inr ⟨other, hother⟩)
  have hissued : ∀ session', system'.Issued session' → system.Issued session' := by
    rintro session' (hholds | ⟨other, hother⟩)
    · rcases hheld session' hholds with rfl | hholds
      · exact hissue
      · exact .inl hholds
    · exact .inr ⟨other, (hopening other session' hother).2⟩
  have hnext : system'.nextSessionSequence = system.nextSessionSequence := by
    rw [← hsystem]
    rfl
  refine ⟨fun roomId session' hsession' => ?_, hnext ▸ h.counted, fun session' hsession' => ?_,
    fun a b ha hb => h.same a b (hissued a ha) (hissued b hb),
    fun session' hsession' => h.valid session' (hissued session' hsession'),
    fun other session' hother => ?_, fun other roomId session' hother => ?_⟩
  · rcases (hrooms roomId session').mp hsession' with ⟨rfl, rfl⟩ | ⟨-, hbefore⟩
    · rfl
    · exact h.room roomId session' hbefore
  · rw [hnext]
    exact h.numbered session' (hissued session' hsession')
  · obtain ⟨hne, hbefore⟩ := hopening other session' hother
    obtain ⟨hnot, hsame⟩ := h.opening other session' hbefore
    refine ⟨fun hholds => ?_, fun another hanother => hsame another (hopening another _ hanother).2⟩
    rcases hheld session' hholds with rfl | hholds
    · exact hne (hunique other hbefore)
    · exact hnot hholds
  · rw [hthreads] at hother
    split at hother
    · simp [Thread.observed?] at hother
    · exact h.observed other roomId session' hother

/-- No thread waits for a request of a session that is just opened. -/
theorem Requests.openSession (h : Requests processId system) (hsessions : Sessions processId system)
    {thread : ℕ} {session : DesktopRoomCommandSession}
    (hthread : system.threads thread = .opening session)
    (hroom : system.state.roomSessions[session.roomId]? = none) :
    Requests processId { system with state := { system.state with
      roomSessions := system.state.roomSessions.insert session.roomId session } } := by
  obtain ⟨hnew, -⟩ := hsessions.opening thread session hthread
  refine ⟨h.exclusive, h.counted, h.numbered, h.unique, fun requestId hnone => ?_, h.unregistered,
    h.inSession, fun other session' request hother => ?_⟩
  · have hclear := h.clear requestId hnone
    exact ⟨hclear.pending, hclear.ready, hclear.waiting, hclear.resolution⟩
  · obtain ⟨hsession, hawaited⟩ := h.waiting other session' request hother
    refine ⟨hsession, hawaited.congr rfl rfl ?_⟩
    change (system.state.roomSessions.insert session.roomId session)[session'.roomId]? =
      some session' ↔ system.state.roomSessions[session'.roomId]? = some session'
    rw [getElem?_insert_eq_some]
    constructor
    · rintro (⟨-, rfl⟩ | ⟨-, hactive⟩)
      · exact absurd (.inr ⟨other, by rw [hother]; rfl⟩) hnew
      · exact hactive
    · intro hactive
      refine .inr ⟨fun heq => ?_, hactive⟩
      rw [heq, hroom] at hactive
      cases hactive

end Ends

/-! ## The steps of a waiter -/

/-- The request is finished, and nothing else changes. -/
structure Closes (requestId : String) (state state' : DesktopCommandConfirmationState) : Prop where
  elsewhere : Elsewhere requestId state state'
  exclusive : Exclusive state'.registry
  grants : state'.registry.roomSessionGrants = state.registry.roomSessionGrants
  clear : Clear state' requestId

/-- What a request comes to, and what that rests on. -/
inductive Concluded (state : DesktopCommandConfirmationState) (session : DesktopRoomCommandSession)
    (request : CommandConfirmationRequest) : DesktopCommandAuthorizationOutcome → Prop
  | authorized (lifetime : AuthorizationLifetime)
    (hready : state.registry.ready[request.requestId]? = some { scope := request.scope, lifetime } ∨
      lifetime = .roomSession ∧ request.scope ∈ state.registry.roomSessionGrants)
    (hactive : Active state session) :
    Concluded state session request (.authorized
      { requestId := request.requestId, scope := request.scope, lifetime })
  | denied (denial : ConfirmationDenial) (hactive : Active state session) :
    Concluded state session request (.denied denial)
  | ended (hactive : ¬Active state session) : Concluded state session request .roomSessionEnded

section Waiters

variable {state : DesktopCommandConfirmationState} {session : DesktopRoomCommandSession}
  {request : CommandConfirmationRequest}

/-- An erased key has no value. -/
theorem getElem?_erase_self {α : Type} (map : ExtTreeMap String α) (key : String) :
    (map.erase key)[key]? = none := by
  simp

/-- Erasing a key leaves the others. -/
theorem getElem?_erase_of_ne {α : Type} (map : ExtTreeMap String α) {key other : String}
    (h : other ≠ key) : (map.erase key)[other]? = map[other]? := by
  rw [ExtTreeMap.getElem?_erase, if_neg]
  exact fun heq => h (LawfulEqCmp.eq_of_compare heq).symm

/-- Inserting at a key leaves the others. -/
theorem getElem?_insert_of_ne {α : Type} (map : ExtTreeMap String α) {key other : String}
    (value : α) (h : other ≠ key) : (map.insert key value)[other]? = map[other]? := by
  rw [ExtTreeMap.getElem?_insert, if_neg]
  exact fun heq => h (LawfulEqCmp.eq_of_compare heq).symm

/-- A round of the loop denies a request that is not decided once its time is over. -/
theorem checkResolution_undecided (hexclusive : Exclusive state.registry)
    (hroom : state.registry.terminal.size < maximumTerminalConfirmations)
    (hpending : state.registry.pending[request.requestId]? = some request.scope)
    (hresolution : state.resolutions[request.requestId]? = none) (expired : Bool) :
    state.checkResolution request expired = (none, state) ∨
      ∃ state', state.checkResolution request expired = (some (.ok (.denied .timedOut)), state') ∧
        Closes request.requestId state state' := by
  unfold DesktopCommandConfirmationState.checkResolution
  rw [hresolution]
  cases expired with
  | false => exact .inl rfl
  | true =>
    have hready : state.registry.ready[request.requestId]? = none :=
      Option.eq_none_iff_forall_ne_some.mpr fun _ => hexclusive.pending_ready hpending
    have hterminal : state.registry.terminal[request.requestId]? = none :=
      Option.eq_none_iff_forall_ne_some.mpr fun _ => hexclusive.pending_terminal hpending
    have hresolve :=
      resolve_denied_eq state.registry request.requestId .timedOut hpending hready hterminal hroom
    have hstep := resolve_step state.registry request.requestId .timedOut
    rw [hresolve] at hstep
    simp only [Bool.not_true, Bool.false_eq_true, if_false, hresolve]
    refine .inr ⟨_, rfl, ⟨rfl, ?_, ?_, ?_, ?_, ?_⟩, hstep.exclusive hexclusive, rfl, ?_⟩
    · exact fun other hne => getElem?_erase_of_ne _ hne
    · exact fun other _ => rfl
    · exact fun other hne => getElem?_insert_of_ne _ _ hne
    · exact fun other hne => getElem?_erase_of_ne _ hne
    · exact fun other _ => rfl
    · exact ⟨getElem?_erase_self _ _, hready, getElem?_erase_self _ _, hresolution⟩

/-- A round of the loop ends the wait, or changes nothing. -/
theorem checkResolution_cases (hexclusive : Exclusive state.registry)
    (hroom : state.registry.terminal.size < maximumTerminalConfirmations)
    (hawaited : Awaited state session request state.resolutions[request.requestId]?)
    (expired : Bool) :
    (state.resolutions[request.requestId]? = none ∧
      state.checkResolution request expired = (none, state)) ∨
      ∃ outcome state', state.checkResolution request expired = (some (.ok outcome), state') ∧
        Concluded state session request outcome ∧ Closes request.requestId state state' := by
  generalize hresolution : state.resolutions[request.requestId]? = resolution at hawaited ⊢
  cases hawaited with
  -- While nothing is decided, only the timeout can conclude the request.
  | undecided hpending hactive =>
    rcases checkResolution_undecided hexclusive hroom hpending hresolution expired with
      hkept | ⟨state', hcheck, hcloses⟩
    · exact .inl ⟨rfl, hkept⟩
    · exact .inr ⟨_, state', hcheck, .denied _ hactive, hcloses⟩
  -- An allowed request is consumed at once.
  | allowed lifetime hready hactive =>
    unfold DesktopCommandConfirmationState.checkResolution
    rw [hresolution]
    have hpending : state.registry.pending[request.requestId]? = none :=
      Option.eq_none_iff_forall_ne_some.mpr fun _ hpending =>
        hexclusive.pending_ready hpending hready
    have hconsume := consumeAuthorization_eq hready hroom
    have hstep := consumeAuthorization_step state.registry request.requestId request.scope
    rw [hconsume] at hstep
    simp only [DesktopCommandConfirmationState.consumed, hconsume]
    refine .inr ⟨_, _, rfl, .authorized lifetime (.inl hready) hactive,
      ⟨rfl, ?_, ?_, ?_, ?_, ?_⟩, hstep.exclusive hexclusive, rfl, ?_⟩
    · exact fun other _ => rfl
    · exact fun other hne => getElem?_erase_of_ne _ hne
    · exact fun other hne => getElem?_insert_of_ne _ _ hne
    · exact fun other hne => getElem?_erase_of_ne _ hne
    · exact fun other hne => getElem?_erase_of_ne _ hne
    · exact ⟨hpending, getElem?_erase_self _ _, getElem?_erase_self _ _, getElem?_erase_self _ _⟩
  -- For a denial and for the end of the session, the entry is only taken away.
  | denied denial hpending hready hactive =>
    unfold DesktopCommandConfirmationState.checkResolution
    rw [hresolution]
    exact .inr ⟨_, _, rfl, .denied denial hactive,
      ⟨rfl, fun _ _ => rfl, fun _ _ => rfl, fun _ _ => rfl,
        fun other hne => getElem?_erase_of_ne _ hne, fun other hne => getElem?_erase_of_ne _ hne⟩,
      hexclusive, rfl, hpending, hready, getElem?_erase_self _ _, getElem?_erase_self _ _⟩
  | ended hpending hready hactive =>
    unfold DesktopCommandConfirmationState.checkResolution
    rw [hresolution]
    exact .inr ⟨_, _, rfl, .ended hactive,
      ⟨rfl, fun _ _ => rfl, fun _ _ => rfl, fun _ _ => rfl,
        fun other hne => getElem?_erase_of_ne _ hne, fun other hne => getElem?_erase_of_ne _ hne⟩,
      hexclusive, rfl, hpending, hready, getElem?_erase_self _ _, getElem?_erase_self _ _⟩

/-- A new request is refused, finished at once, or waited for. -/
theorem registerWaiter_cases (hexclusive : Exclusive state.registry)
    (hroom : state.registry.terminal.size < maximumTerminalConfirmations)
    (hclear : Clear state request.requestId)
    (hterminal : state.registry.terminal[request.requestId]? = none)
    (hin : InSession request.scope session) :
    (maximumPendingConfirmations ≤ state.registry.pending.size + state.registry.ready.size ∧
      state.registerWaiter session request = (some (.error unavailable), state)) ∨
    (∃ outcome state', state.registerWaiter session request = (some (.ok outcome), state') ∧
      Concluded state session request outcome ∧ Closes request.requestId state state') ∨
    ∃ state', state.registerWaiter session request = (none, state') ∧
      Elsewhere request.requestId state state' ∧ Exclusive state'.registry ∧
      state'.registry =
        { state.registry with
          pending := state.registry.pending.insert request.requestId request.scope } ∧
      state'.waitingSessions[request.requestId]? = some session.sessionId ∧
      state'.resolutions[request.requestId]? = none ∧ Active state' session := by
  unfold DesktopCommandConfirmationState.registerWaiter
  by_cases hactive : Active state session
  · have hnotWaiting : ¬state.waitingSessions.contains request.requestId = true := by
      simp [ExtTreeMap.contains_eq_isSome_getElem?, hclear.waiting]
    have hregister := register_new_eq request hclear.pending hclear.ready hterminal hroom
    rw [if_neg, if_neg hnotWaiting, hregister]
    · have hstep := register_step state.registry request
      rw [hregister] at hstep
      split_ifs at hstep ⊢ with hfull hgrant
      -- The registry is full.
      · exact .inl ⟨hfull, rfl⟩
      -- The room has a grant for the scope, so the authorization is consumed at once.
      · refine .inr (.inl ?_)
        have hready : ({ state.registry with
            ready := state.registry.ready.insert request.requestId
              { scope := request.scope, lifetime := .roomSession } } :
              CommandConfirmationRegistry).ready[request.requestId]? =
            some { scope := request.scope, lifetime := .roomSession } := by
          simp
        have hconsume := consumeAuthorization_eq hready hroom
        have hconsumed := consumeAuthorization_step { state.registry with
          ready := state.registry.ready.insert request.requestId
            { scope := request.scope, lifetime := .roomSession } } request.requestId request.scope
        rw [hconsume] at hconsumed
        simp only [DesktopCommandConfirmationState.consumed, hconsume]
        refine ⟨_, _, rfl, .authorized .roomSession (.inr ⟨rfl, hgrant⟩) hactive,
          ⟨rfl, ?_, ?_, ?_, ?_, ?_⟩, hconsumed.exclusive (hstep.exclusive hexclusive), rfl, ?_⟩
        · exact fun other _ => rfl
        · intro other hne
          exact (getElem?_erase_of_ne _ hne).trans (getElem?_insert_of_ne _ _ hne)
        · exact fun other hne => getElem?_insert_of_ne _ _ hne
        · exact fun other _ => rfl
        · exact fun other _ => rfl
        · exact ⟨hclear.pending, getElem?_erase_self _ _, hclear.waiting, hclear.resolution⟩
      -- Without a grant, the request waits for the owner.
      · refine .inr (.inr ⟨_, rfl, ⟨rfl, ?_, ?_, ?_, ?_, ?_⟩,
          hstep.exclusive hexclusive, rfl, ?_, ?_⟩)
        · exact fun other hne => getElem?_insert_of_ne _ _ hne
        · exact fun other _ => rfl
        · exact fun other _ => rfl
        · exact fun other hne => getElem?_insert_of_ne _ _ hne
        · exact fun other _ => rfl
        · simp [hin.sessionId]
        · exact ⟨hclear.resolution, hactive⟩
    · rw [Active] at hactive
      simp [hactive, hin.roomId, hin.sessionId, hin.workspaceKey]
  -- A session that has ended registers nothing.
  · rw [if_pos]
    · exact .inr (.inl ⟨_, _, rfl, .ended hactive, ⟨rfl, fun _ _ => rfl, fun _ _ => rfl,
        fun _ _ => rfl, fun _ _ => rfl, fun _ _ => rfl⟩, hexclusive, rfl, hclear⟩)
    · have hnot : (state.roomSessions[session.roomId]? != some session) = true := by
        simpa [Active] using hactive
      simp [hnot]

end Waiters

/-! ## A step keeps the sessions apart -/

section Steps

variable {processId : UInt32} {system : System}

/-- Registering a request changes no session. -/
theorem registerWaiter_rooms (session : DesktopRoomCommandSession)
    (request : CommandConfirmationRequest) (state : DesktopCommandConfirmationState) :
    (state.registerWaiter session request).2.roomSessions = state.roomSessions := by
  unfold DesktopCommandConfirmationState.registerWaiter DesktopCommandConfirmationState.consumed
  split_ifs
  · rfl
  · rfl
  · split
    · rfl
    · dsimp only
      split <;> rfl
    · rfl
    · rfl

/-- Looking for a resolution changes no session. -/
theorem checkResolution_rooms (request : CommandConfirmationRequest) (expired : Bool)
    (state : DesktopCommandConfirmationState) :
    (state.checkResolution request expired).2.roomSessions = state.roomSessions := by
  unfold DesktopCommandConfirmationState.checkResolution DesktopCommandConfirmationState.consumed
  split
  · dsimp only
    split
    · split <;> rfl
    · rfl
    · rfl
  · split_ifs
    · rfl
    · dsimp only
      split <;> rfl

/-- A decision changes no session. -/
theorem applyDecision_rooms (requestId : String) (decision : ConfirmationDecision)
    (state : DesktopCommandConfirmationState) :
    (state.applyDecision requestId decision).2.roomSessions = state.roomSessions := by
  unfold DesktopCommandConfirmationState.applyDecision
  split <;> rfl

/-- A decision for a room changes the state as any decision does, or not at all. -/
theorem resolveForRoom_cases (roomId requestId : String) (decision : DesktopConfirmationDecision)
    (state : DesktopCommandConfirmationState) :
    (state.resolveForRoom roomId requestId decision).2 = state ∨
      (state.resolveForRoom roomId requestId decision).2 =
        (state.applyDecision requestId (mapDecision decision)).2 := by
  unfold DesktopCommandConfirmationState.resolveForRoom
  split_ifs
  · exact .inl rfl
  · dsimp only
    split_ifs
    · exact .inl rfl
    · refine .inr ?_
      split <;> simp [*]

/-- The end of a room's session takes it away, or changes nothing. -/
theorem endRoomSession_cases (roomId : String) (state : DesktopCommandConfirmationState) :
    (state.endRoomSession roomId).2 = state ∨
      (state.endRoomSession roomId).2 = state.withoutRoom roomId := by
  by_cases hvalid : validIdentifier roomId = true
  · obtain ⟨removed, hended⟩ := endRoomSession_eq hvalid state
    exact .inr (by rw [hended])
  · refine .inl ?_
    unfold DesktopCommandConfirmationState.endRoomSession
    rw [if_pos (by simpa using hvalid)]

/-- A state with the same sessions keeps them apart. -/
theorem Sessions.withState (h : Sessions processId system)
    {state : DesktopCommandConfirmationState}
    (hrooms : state.roomSessions = system.state.roomSessions) :
    Sessions processId { system with state } := by
  refine h.frame rfl (fun roomId session hsession => ?_)
    (fun thread session hthread => .inr ⟨thread, hthread⟩) (fun thread session hthread => hthread)
    h.observed
  rwa [← hrooms]

/-- A step of a thread keeps the sessions apart. -/
theorem Sessions.advance (h : Sessions processId system) (thread : ℕ) (seen : Seen) :
    Sessions processId (system.advance processId thread seen) := by
  have hkept : ∀ (roomId : String) (session : DesktopRoomCommandSession),
      system.state.roomSessions[roomId]? = some session →
        system.state.roomSessions[roomId]? = some session := fun _ _ => id
  unfold System.advance
  generalize hthread : system.threads thread = current
  -- A thread that goes on with the session that it has.
  have hmoves : ∀ (next : Thread) (number : ℕ), (∀ session, next ≠ .opening session) →
      (∀ session, next.session? = some session → system.Holds session) →
      (∀ roomId session, next.observed? = some (roomId, session) → session.roomId = roomId) →
      Sessions processId
        ({ system with nextRequestSequence := number }.setThread thread next) :=
    fun next number => h.setThread hkept
  have hholds : ∀ session, current.session? = some session → system.Holds session :=
    fun session hsession => .inr ⟨thread, by rw [hthread]; exact hsession⟩
  cases current with
  | idle | returned => exact h
  | opening session =>
    dsimp only
    rw [replaceRoomSession_eq]
    refine (h.withoutRoom session.roomId).openSession hthread ?_
    refine Option.eq_none_iff_forall_ne_some.mpr fun other hother => ?_
    exact ((withoutRoom_rooms session.roomId system.state _ other).mp hother).1 rfl
  | looking roomId command targetLabel =>
    dsimp only
    rcases hroom : system.state.roomSessions[roomId]? with _ | session
    · exact hmoves _ _ (by simp) (by simp [Thread.session?]) (by simp [Thread.observed?])
    · have hid := h.room roomId session hroom
      refine hmoves _ _ (by simp) (fun other hother => ?_) fun other session' hother => ?_
      · obtain rfl : session = other := Option.some.inj hother
        exact .inl (by rw [Active, hid]; exact hroom)
      · simp only [Thread.observed?, Option.some.injEq, Prod.mk.injEq] at hother
        obtain ⟨rfl, rfl⟩ := hother
        exact hid
  | checking roomId session command targetLabel =>
    have hobserved : ∀ other session', some (roomId, session) = some (other, session') →
        session'.roomId = other := by
      intro other session' hother
      exact h.observed thread other session' (by rw [hthread]; exact hother)
    dsimp only
    split
    · exact hmoves _ _ (by simp) hholds hobserved
    · split_ifs
      · exact hmoves _ _ (by simp) hholds hobserved
      · exact hmoves _ _ (by simp) hholds (by simp [Thread.observed?])
  | ending roomId session =>
    have hstate : Sessions processId
        { system with state := (system.state.endRoomSession roomId).2 } := by
      rcases endRoomSession_cases roomId system.state with heq | heq
      · rw [heq]
        exact h
      · rw [heq]
        exact h.withoutRoom roomId
    dsimp only
    split
    all_goals
      next heq =>
      rw [heq] at hstate
      exact hstate.setThread (fun _ _ => id) (by simp) (by simp [Thread.session?])
        (by simp [Thread.observed?])
  | numbering session command targetLabel =>
    dsimp only
    unfold System.numberRequest
    split
    · exact hmoves _ _ (by simp) (by simp [Thread.session?]) (by simp [Thread.observed?])
    · dsimp only
      split
      · exact hmoves _ _ (by simp) (by simp [Thread.session?]) (by simp [Thread.observed?])
      · split
        · exact hmoves _ _ (by simp) (by simp [Thread.session?]) (by simp [Thread.observed?])
        · exact hmoves _ _ (by simp) hholds (by simp [Thread.observed?])
  | registering session request | waiting session request =>
    have hcheck : ∀ state : DesktopCommandConfirmationState,
        state.roomSessions = system.state.roomSessions →
          Sessions processId
            ({ system with state }.checkWaiter thread session request seen.expired) := by
      intro state hstate
      have hrooms := checkResolution_rooms request seen.expired state
      unfold System.checkWaiter
      dsimp only
      split
      all_goals
        next heq =>
        rw [heq] at hrooms
        refine h.setThread (fun roomId other hother => ?_) (by simp) ?_ (by simp [Thread.observed?])
        · rwa [← hstate, ← hrooms]
        · first
            | exact hholds
            | simp [Thread.session?]
    first
      | exact hcheck system.state rfl
      | have hrooms := registerWaiter_rooms session request system.state
        dsimp only
        split
        · next heq =>
          rw [heq] at hrooms
          refine h.setThread (fun roomId other hother => ?_) (by simp) (by simp [Thread.session?])
            (by simp [Thread.observed?])
          rwa [← hrooms]
        · next heq =>
          rw [heq] at hrooms
          exact hcheck _ hrooms

/-- Every action keeps the sessions apart. -/
theorem Sessions.step (h : Sessions processId system) (action : Action) :
    Sessions processId (system.step processId action) := by
  -- The session numbers only go up, and each action opens at most one session.
  cases action with
  | beginRoomSession thread roomId workspace =>
    unfold System.step
    dsimp only
    split
    · next hidle => exact h.beginRoomSession hidle
    · exact h
  | waitForRoomAuthorization thread roomId command targetLabel =>
    unfold System.step
    dsimp only
    split
    · split_ifs
      all_goals
        exact h.setThread (fun _ _ => id) (by simp) (by simp [Thread.session?])
          (by simp [Thread.observed?])
    · exact h
  | advance thread seen => exact h.advance thread seen
  | resolveForRoom roomId requestId decision =>
    refine h.withState ?_
    rcases resolveForRoom_cases roomId requestId decision system.state with heq | heq
    · rw [heq]
    · rw [heq, applyDecision_rooms]
  | timeout requestId => exact h.withState (applyDecision_rooms requestId .timedOut system.state)
  | endRoomSession roomId =>
    change Sessions processId { system with state := (system.state.endRoomSession roomId).2 }
    rcases endRoomSession_cases roomId system.state with heq | heq
    · rw [heq]
      exact h
    · rw [heq]
      exact h.withoutRoom roomId

/-- At first there is no session. -/
theorem sessions_initial : Sessions processId .initial := by
  have hholds : ∀ session, ¬System.initial.Holds session := by
    rintro session (hactive | ⟨thread, hthread⟩)
    · simp [Active, System.initial, DesktopCommandConfirmationState.empty] at hactive
    · simp [System.initial, Thread.session?] at hthread
  have hissued : ∀ session, ¬System.initial.Issued session := by
    rintro session (hheld | ⟨thread, hthread⟩)
    · exact hholds session hheld
    · simp [System.initial] at hthread
  refine ⟨?_, by decide, fun session hsession => absurd hsession (hissued session),
    fun a b ha => absurd ha (hissued a), fun session hsession => absurd hsession (hissued session),
    ?_, ?_⟩
  · simp [System.initial, DesktopCommandConfirmationState.empty]
  · simp [System.initial]
  · simp [System.initial, Thread.observed?]

/-- In every run the sessions are kept apart. -/
theorem sessions_run (actions : List Action) : Sessions processId
    (System.run processId actions) := by
  induction actions using List.reverseRecOn with
  | nil => exact sessions_initial
  | append_singleton actions action ih =>
    rw [System.run, List.foldl_append]
    exact ih.step action

/-- A run with one more action is one more step. -/
theorem run_append_singleton (actions : List Action) (action : Action) :
    System.run processId (actions ++ [action]) =
      (System.run processId actions).step processId action := by
  simp [System.run]

end Steps

/-! ## A step keeps the requests apart -/

/-- The next step of a thread, and what it rests on. -/
inductive Progress (processId : UInt32) (system : System) (thread : ℕ) : System → Prop
  | rest (h : (system.threads thread = .idle) ∨
      ∃ requestId result, system.threads thread = .returned requestId result) :
    Progress processId system thread system
  | opened (session : DesktopRoomCommandSession)
    (hthread : system.threads thread = .opening session) :
    Progress processId system thread
      ({ system with state := system.state.replaceRoomSession session }.setThread thread .idle)
  | missed (roomId : String) (command : ActionTimeCommand) (targetLabel : String)
    (hthread : system.threads thread = .looking roomId command targetLabel) :
    Progress processId system thread
      (system.setThread thread (.returned none (.ok .roomSessionEnded)))
  | found (roomId : String) (command : ActionTimeCommand) (targetLabel : String)
    (session : DesktopRoomCommandSession)
    (hthread : system.threads thread = .looking roomId command targetLabel)
    (hactive : Active system.state session) :
    Progress processId system thread
      (system.setThread thread (.checking roomId session command targetLabel))
  | stale (roomId : String) (session : DesktopRoomCommandSession) (command : ActionTimeCommand)
    (targetLabel : String)
    (hthread : system.threads thread = .checking roomId session command targetLabel) :
    Progress processId system thread (system.setThread thread (.ending roomId session))
  | current (roomId : String) (session : DesktopRoomCommandSession) (command : ActionTimeCommand)
    (targetLabel : String)
    (hthread : system.threads thread = .checking roomId session command targetLabel) :
    Progress processId system thread
      (system.setThread thread (.numbering session command targetLabel))
  | ended (roomId : String) (session : DesktopRoomCommandSession)
    (hthread : system.threads thread = .ending roomId session) :
    Progress processId system thread
      ({ system with state := system.state.withoutRoom roomId }.setThread thread
        (.returned none (.ok .roomSessionEnded)))
  | exhausted (session : DesktopRoomCommandSession) (command : ActionTimeCommand)
    (targetLabel : String)
    (hthread : system.threads thread = .numbering session command targetLabel)
    (hlast : system.nextRequestSequence + 1 = 2 ^ 64) :
    Progress processId system thread
      (system.setThread thread (.returned none (.error unavailable)))
  | unlabelled (session : DesktopRoomCommandSession) (command : ActionTimeCommand)
    (targetLabel : String)
    (hthread : system.threads thread = .numbering session command targetLabel)
    (hnext : system.nextRequestSequence + 1 < 2 ^ 64)
    (hlabel : validTargetLabel targetLabel = false) :
    Progress processId system thread
      ({ system with nextRequestSequence := system.nextRequestSequence + 1 }.setThread thread
        (.returned none (.error invalid)))
  | numbered (session : DesktopRoomCommandSession) (command : ActionTimeCommand)
    (targetLabel : String) (request : CommandConfirmationRequest)
    (hthread : system.threads thread = .numbering session command targetLabel)
    (hnext : system.nextRequestSequence + 1 < 2 ^ 64)
    (hid : request.requestId = requestIdentifier processId system.nextRequestSequence)
    (hin : InSession request.scope session) :
    Progress processId system thread
      ({ system with nextRequestSequence := system.nextRequestSequence + 1 }.setThread thread
        (.registering session request))
  | crowded (session : DesktopRoomCommandSession) (request : CommandConfirmationRequest)
    (hthread : system.threads thread = .registering session request)
    (hfull : maximumPendingConfirmations ≤
      system.state.registry.pending.size + system.state.registry.ready.size) :
    Progress processId system thread
      (system.setThread thread (.returned (some request.requestId) (.error unavailable)))
  | waits (session : DesktopRoomCommandSession) (request : CommandConfirmationRequest)
    (state' : DesktopCommandConfirmationState)
    (hthread : system.threads thread = .registering session request)
    (hstate : Elsewhere request.requestId system.state state')
    (hexclusive : Exclusive state'.registry)
    (hregistry : state'.registry = { system.state.registry with
      pending := system.state.registry.pending.insert request.requestId request.scope })
    (hsession : state'.waitingSessions[request.requestId]? = some session.sessionId)
    (hresolution : state'.resolutions[request.requestId]? = none)
    (hactive : Active state' session) :
    Progress processId system thread
      ({ system with state := state' }.setThread thread (.waiting session request))
  | waitsOn (session : DesktopRoomCommandSession) (request : CommandConfirmationRequest)
    (hthread : system.threads thread = .waiting session request)
    (hresolution : system.state.resolutions[request.requestId]? = none) :
    Progress processId system thread system
  | concluded (session : DesktopRoomCommandSession) (request : CommandConfirmationRequest)
    (outcome : DesktopCommandAuthorizationOutcome) (state' : DesktopCommandConfirmationState)
    (hthread : system.threads thread = .registering session request ∨
      system.threads thread = .waiting session request)
    (hconcluded : Concluded system.state session request outcome)
    (hcloses : Closes request.requestId system.state state') :
    Progress processId system thread
      ({ system with state := state' }.setThread thread
        (.returned (some request.requestId) (.ok outcome)))

section Progress

variable {processId : UInt32} {system : System}

/-- A thread that stays where it is changes nothing. -/
theorem setThread_self {thread : ℕ} {next : Thread} (h : system.threads thread = next) :
    system.setThread thread next = system := by
  subst h
  simp [System.setThread]

/-- Two changes that leave the others alone, one after the other. -/
theorem Elsewhere.trans {requestId : String} {first second third : DesktopCommandConfirmationState}
    (h : Elsewhere requestId first second) (h' : Elsewhere requestId second third) :
    Elsewhere requestId first third :=
  ⟨h'.rooms.trans h.rooms, fun other hne => (h'.pending other hne).trans (h.pending other hne),
    fun other hne => (h'.ready other hne).trans (h.ready other hne),
    fun other hne => (h'.terminal other hne).trans (h.terminal other hne),
    fun other hne => (h'.waiting other hne).trans (h.waiting other hne),
    fun other hne => (h'.resolution other hne).trans (h.resolution other hne)⟩

/-- A request that is not registered yet has no entries. -/
theorem Requests.clear_registering (h : Requests processId system) {thread : ℕ}
    {session : DesktopRoomCommandSession} {request : CommandConfirmationRequest}
    (hthread : system.threads thread = .registering session request) :
    Clear system.state request.requestId := by
  refine h.clear _ fun other session' request' hother heq => ?_
  obtain rfl : thread = other := h.unique thread other request.requestId (by rw [hthread]; rfl)
    (by rw [hother, ← heq]; rfl)
  rw [hthread] at hother
  cases hother

/-- Every step of a thread is one of them. -/
theorem advance_progress (hsessions : Sessions processId system) (h : Requests processId system)
    (hroom : system.state.registry.terminal.size < maximumTerminalConfirmations) (thread : ℕ)
    (seen : Seen) : Progress processId system thread (system.advance processId thread seen) := by
  unfold System.advance
  -- One case for each phase that a thread can be in.
  rcases hthread : system.threads thread with _ | session | ⟨roomId, command, targetLabel⟩ |
    ⟨roomId, session, command, targetLabel⟩ | ⟨roomId, session⟩ |
    ⟨session, command, targetLabel⟩ | ⟨session, request⟩ | ⟨session, request⟩ | ⟨requestId, result⟩
  · exact .rest (.inl hthread)
  · exact .opened session hthread
  · dsimp only
    rcases hsession : system.state.roomSessions[roomId]? with _ | session
    · exact .missed roomId command targetLabel hthread
    · refine .found roomId command targetLabel session hthread ?_
      rw [Active, hsessions.room roomId session hsession]
      exact hsession
  · dsimp only
    split
    · exact .stale roomId session command targetLabel hthread
    · split_ifs
      · exact .stale roomId session command targetLabel hthread
      · exact .current roomId session command targetLabel hthread
  -- The session that the thread has seen was issued, so its identifier is valid, and it can be
  -- ended.
  · have hissued : system.Issued session := .inl (.inr ⟨thread, by rw [hthread]; rfl⟩)
    have hid := hsessions.observed thread roomId session (by rw [hthread]; rfl)
    have hvalid := (hsessions.valid session hissued).1
    rw [hid] at hvalid
    obtain ⟨removed, hended⟩ := endRoomSession_eq hvalid system.state
    simp only [hended]
    exact .ended roomId session hthread
  · have hissued : system.Issued session := .inl (.inr ⟨thread, by rw [hthread]; rfl⟩)
    rcases @numberRequest_cases processId _ h.counted thread session command targetLabel
      (hsessions.valid session hissued) with
      ⟨hlast, heq⟩ | ⟨hnext, ⟨hlabel, heq⟩ | ⟨request, hid, hin, heq⟩⟩
    · simp only [heq]
      exact .exhausted session command targetLabel hthread hlast
    · simp only [heq]
      exact .unlabelled session command targetLabel hthread hnext hlabel
    · simp only [heq]
      exact .numbered session command targetLabel request hthread hnext hid hin
  · have hclear := h.clear_registering hthread
    have hterminal := h.unregistered thread session request hthread
    have hin := h.inSession thread session request (.inl hthread)
    rcases registerWaiter_cases h.exclusive hroom hclear hterminal hin with
      ⟨hfull, heq⟩ | ⟨outcome, state', heq, hconcluded, hcloses⟩ |
      ⟨state', heq, hstate, hexclusive, hregistry, hsession, hresolution, hactive⟩
    · simp only [heq]
      exact .crowded session request hthread hfull
    · simp only [heq]
      exact .concluded session request outcome state' (.inl hthread) hconcluded hcloses
    · -- The first round of the loop follows at once.
      simp only [heq]
      have hpending : state'.registry.pending[request.requestId]? = some request.scope := by
        rw [hregistry]
        simp
      have hroom' : state'.registry.terminal.size < maximumTerminalConfirmations := by
        rw [hregistry]
        exact hroom
      unfold System.checkWaiter
      rcases checkResolution_undecided hexclusive hroom' hpending hresolution seen.expired with
        hcheck | ⟨state'', hcheck, hcloses⟩
      · simp only [hcheck]
        exact .waits session request state' hthread hstate hexclusive hregistry hsession hresolution
          hactive
      · simp only [hcheck]
        have hgrants : state'.registry.roomSessionGrants =
          system.state.registry.roomSessionGrants := by
          rw [hregistry]
        exact .concluded session request _ state'' (.inl hthread)
          (.denied _ ((hstate.active session).mp hactive))
          ⟨hstate.trans hcloses.elsewhere, hcloses.exclusive, hcloses.grants.trans hgrants,
            hcloses.clear⟩
  -- A waiter looks again at what was decided for its request.
  · obtain ⟨-, hawaited⟩ := h.waiting thread session request hthread
    dsimp only
    unfold System.checkWaiter
    rcases checkResolution_cases h.exclusive hroom hawaited seen.expired with
      ⟨hresolution, hcheck⟩ | ⟨outcome, state', hcheck, hconcluded, hcloses⟩
    · simp only [hcheck]
      rw [setThread_self hthread]
      exact .waitsOn session request hthread hresolution
    · simp only [hcheck]
      exact .concluded session request outcome state' (.inr hthread) hconcluded hcloses
  · exact .rest (.inr ⟨requestId, result, hthread⟩)

/-- A step of a thread keeps the requests apart. -/
theorem Requests.progress (h : Requests processId system) (hsessions : Sessions processId system)
    {thread : ℕ} {system' : System} (hprogress : Progress processId system thread system') :
    Requests processId system' := by
  -- A thread that has made no request, and makes none.
  have hmoves : ∀ {next : Thread} {number : ℕ}, system.nextRequestSequence ≤ number →
      number < 2 ^ 64 → (∀ session request, system.threads thread ≠ .waiting session request) →
      (∀ session request, next ≠ .waiting session request ∧ next ≠ .registering session request) →
      next.requestId? = none →
      Requests processId ({ system with nextRequestSequence := number }.setThread thread next) :=
    fun hnumber hcounted hbefore hnext hid =>
      h.setThread hnumber hcounted hbefore hnext (by simp [hid])
  have hcounted := h.counted
  cases hprogress with
  | rest | waitsOn => exact h
  | opened session hthread =>
    rw [replaceRoomSession_eq]
    have hopened := (h.withoutRoom hsessions session.roomId).openSession
      (hsessions.withoutRoom session.roomId) hthread (by
        refine Option.eq_none_iff_forall_ne_some.mpr fun other hother => ?_
        exact ((withoutRoom_rooms session.roomId system.state _ other).mp hother).1 rfl)
    exact hopened.setThread le_rfl hopened.counted (by simp [hthread]) (by simp)
      (by simp [Thread.requestId?])
  | missed _ _ _ hthread | found _ _ _ _ hthread | stale _ _ _ _ hthread | current _ _ _ _ hthread
  | exhausted _ _ _ hthread =>
    exact hmoves le_rfl hcounted (by simp [hthread]) (by simp) rfl
  | ended roomId session hthread =>
    have hended := h.withoutRoom hsessions roomId
    exact hended.setThread le_rfl hended.counted (by simp [hthread]) (by simp)
      (by simp [Thread.requestId?])
  | unlabelled _ _ _ hthread hnext =>
    exact hmoves (Nat.le_succ _) hnext (by simp [hthread]) (by simp) rfl
  | numbered session _ _ request hthread hnext hid hin =>
    exact h.number hnext (by simp [hthread]) hid hin
  | crowded session request hthread =>
    exact h.setThread le_rfl hcounted (by simp [hthread]) (by simp)
      (by simp [hthread, Thread.requestId?])
  | waits session request state' hthread hstate hexclusive hregistry hsession hresolution hactive =>
    have hin := h.inSession thread session request (.inl hthread)
    have hpending : state'.registry.pending[request.requestId]? = some request.scope := by
      rw [hregistry]
      simp
    refine h.change (by rw [hthread]; rfl) rfl (by simp) hstate hexclusive (by simp) ?_
    intro session' request' heq
    obtain ⟨rfl, rfl⟩ := Thread.waiting.inj heq
    exact ⟨hin, hsession, hresolution ▸ .undecided hpending hactive⟩
  | concluded session request outcome state' hthread _ hcloses =>
    refine h.change ?_ rfl (by simp) hcloses.elsewhere hcloses.exclusive
      (fun _ => hcloses.clear) (by simp)
    rcases hthread with hthread | hthread <;> rw [hthread] <;> rfl

/-- A request with an entry belongs to a thread that waits for it. -/
theorem Requests.exists_waiting (h : Requests processId system) {requestId : String}
    (hentry : ¬Clear system.state requestId) :
    ∃ thread session request, system.threads thread = .waiting session request ∧
      request.requestId = requestId := by
  by_contra hnone
  exact hentry (h.clear requestId fun thread session request hthread heq =>
    hnone ⟨thread, session, request, hthread, heq⟩)

/-- A decision becomes the resolution of the request. -/
theorem Requests.applyDecision (h : Requests processId system) (requestId : String)
    (decision : ConfirmationDecision) :
    Requests processId
      { system with state := (system.state.applyDecision requestId decision).2 } := by
  have hpr := @h.exclusive.pending_ready
  have hstep := resolve_step system.state.registry requestId decision
  unfold DesktopCommandConfirmationState.applyDecision
  rcases hresolve : system.state.registry.resolve requestId decision with ⟨answer, registry'⟩
  rw [hresolve] at hstep
  -- The thread that waits for the request, when it is pending.
  have howner : ∀ scope, system.state.registry.pending[requestId]? = some scope →
      ∃ thread session request, system.threads thread = .waiting session request ∧
        request.requestId = requestId ∧ request.scope = scope ∧ Active system.state session := by
    intro scope hpending
    have hentry : ¬Clear system.state requestId := fun hclear => by
      simp [hclear.pending] at hpending
    obtain ⟨thread, session, request, hthread, rfl⟩ := h.exists_waiting hentry
    obtain ⟨-, hawaited⟩ := h.waiting thread session request hthread
    refine ⟨thread, session, request, hthread, rfl,
      ((hawaited.entries h.exclusive).1 scope hpending).symm, ?_⟩
    generalize system.state.resolutions[request.requestId]? = resolution at hawaited
    cases hawaited with
    | undecided _ hactive | allowed _ _ hactive | denied _ _ _ hactive => exact hactive
    | ended hnone => simp [hnone] at hpending
  -- Its entries change, and those of no other request.
  have hchange : ∀ outcome registry' scope,
      system.state.registry.pending[requestId]? = some scope → Exclusive registry' →
      (∀ other ≠ requestId, registry'.pending[other]? = system.state.registry.pending[other]? ∧
        registry'.ready[other]? = system.state.registry.ready[other]? ∧
        registry'.terminal[other]? = system.state.registry.terminal[other]?) →
      (∀ session request resolutions, request.requestId = requestId → request.scope = scope →
        Active system.state session →
          Awaited { system.state with registry := registry', resolutions }
          session request (some (.resolved outcome))) →
      Requests processId { system with state := { system.state with
        registry := registry'
        resolutions := if system.state.waitingSessions.contains requestId then
          system.state.resolutions.insert requestId (.resolved outcome)
          else system.state.resolutions } } := by
    intro outcome registry' scope hpending hexclusive hothers hawaited
    obtain ⟨thread, session, request, hthread, rfl, rfl, hactive⟩ := howner scope hpending
    obtain ⟨hsession, -⟩ := h.waiting thread session request hthread
    have hwaits : system.state.waitingSessions.contains request.requestId = true := by
      simp [ExtTreeMap.contains_eq_isSome_getElem?, hsession]
    rw [if_pos hwaits]
    have hchanged := @Requests.change processId system { system.state with
      registry := registry'
      resolutions := system.state.resolutions.insert request.requestId (.resolved outcome) } h
      thread (.waiting session request) _ (by rw [hthread]; rfl) rfl (by simp)
      ⟨rfl, fun other hne => (hothers other hne).1, fun other hne => (hothers other hne).2.1,
        fun other hne => (hothers other hne).2.2, fun other _ => rfl,
        fun other hne => getElem?_insert_of_ne _ _ hne⟩ hexclusive (by simp) (by
        intro session' request' heq
        obtain ⟨rfl, rfl⟩ := Thread.waiting.inj heq
        have hin := h.inSession thread session request (.inr hthread)
        refine ⟨hin, hsession, ?_⟩
        rw [show (system.state.resolutions.insert request.requestId
          (DesktopCommandWaitResolution.resolved outcome))[request.requestId]? =
            some (.resolved outcome) by simp]
        exact hawaited session request _ rfl rfl hactive)
    rw [setThread_self] at hchanged
    · exact hchanged
    · exact hthread
  cases hstep with
  | resolveRefused => exact h
  | allow _ scope _ lifetime hpending _ _ =>
    refine hchange _ _ scope hpending ?_ (fun other hne => ⟨?_, ?_, rfl⟩)
      fun session request resolutions hid hscope hactive => ?_
    · have hstep := resolve_step system.state.registry requestId decision
      rw [hresolve] at hstep
      exact hstep.exclusive h.exclusive
    · exact getElem?_erase_of_ne _ hne
    · exact getElem?_insert_of_ne _ _ hne
    · subst hid hscope
      exact .allowed lifetime (by simp) hactive
  | deny _ scope _ denial hpending _ =>
    refine hchange _ _ scope hpending ?_ (fun other hne => ⟨?_, rfl, ?_⟩)
      fun session request resolutions hid hscope hactive => ?_
    · have hstep := resolve_step system.state.registry requestId decision
      rw [hresolve] at hstep
      exact hstep.exclusive h.exclusive
    · exact getElem?_erase_of_ne _ hne
    · exact getElem?_insert_of_ne _ _ hne
    · subst hid hscope
      refine .denied denial (by simp) ?_ hactive
      exact Option.eq_none_iff_forall_ne_some.mpr fun _ => hpr hpending

/-- Every action keeps the requests apart. -/
theorem Requests.step (h : Requests processId system) (hsessions : Sessions processId system)
    (hroom : system.state.registry.terminal.size < maximumTerminalConfirmations)
    (action : Action) : Requests processId (system.step processId action) := by
  -- The thread that begins something gives up nothing, and every other action has its own lemma.
  cases action with
  | beginRoomSession thread roomId workspace =>
    unfold System.step System.beginRoomSession
    dsimp only
    split
    · next hidle =>
      split_ifs
      · exact h
      · split
        · exact h
        · exact h.setThread le_rfl h.counted (by simp [hidle])
            (by simp) (by simp [Thread.requestId?])
    · exact h
  | waitForRoomAuthorization thread roomId command targetLabel =>
    unfold System.step
    dsimp only
    split
    · next hidle =>
      split_ifs
      all_goals
        exact h.setThread le_rfl h.counted (by simp [hidle]) (by simp) (by simp [Thread.requestId?])
    · exact h
  | advance thread seen =>
    exact h.progress hsessions (advance_progress hsessions h hroom thread seen)
  | resolveForRoom roomId requestId decision =>
    change Requests processId
      { system with state := (system.state.resolveForRoom roomId requestId decision).2 }
    rcases resolveForRoom_cases roomId requestId decision system.state with heq | heq
    · rw [heq]
      exact h
    · rw [heq]
      exact h.applyDecision requestId _
  | timeout requestId => exact h.applyDecision requestId .timedOut
  | endRoomSession roomId =>
    change Requests processId { system with state := (system.state.endRoomSession roomId).2 }
    rcases endRoomSession_cases roomId system.state with heq | heq
    · rw [heq]
      exact h
    · rw [heq]
      exact h.withoutRoom hsessions roomId

/-- At first there is no request. -/
theorem requests_initial : Requests processId .initial := by
  refine ⟨⟨?_, ?_, ?_⟩, by decide, ?_, ?_, fun requestId _ => ⟨?_, ?_, ?_, ?_⟩, ?_, ?_, ?_⟩ <;>
    simp [System.initial, DesktopCommandConfirmationState.empty, CommandConfirmationRegistry.empty,
      Thread.requestId?]

end Progress

/-! ## What a waiter can rely on -/

/-- The thread returns from `wait_for_room_authorization`. -/
def Returns (processId : UInt32) (system : System) (action : Action) (thread : ℕ)
    (requestId : Option String) (result : WaitResult) : Prop :=
  (∀ requestId result, system.threads thread ≠ .returned requestId result) ∧
    (system.step processId action).threads thread = .returned requestId result

/-- Why a call returns an error, which is before its request is registered. -/
inductive Refused (system : System) (thread : ℕ) : Action → DesktopCommandConfirmationError → Prop
  | room (roomId : String) (command : ActionTimeCommand) (targetLabel : String)
    (h : validIdentifier roomId = false) :
    Refused system thread (.waitForRoomAuthorization thread roomId command targetLabel) invalid
  | numbers (session : DesktopRoomCommandSession) (command : ActionTimeCommand)
    (targetLabel : String) (seen : Seen)
    (hthread : system.threads thread = .numbering session command targetLabel)
    (h : system.nextRequestSequence + 1 = 2 ^ 64) :
    Refused system thread (.advance thread seen) unavailable
  | targetLabel (session : DesktopRoomCommandSession) (command : ActionTimeCommand)
    (targetLabel : String) (seen : Seen)
    (hthread : system.threads thread = .numbering session command targetLabel)
    (h : validTargetLabel targetLabel = false) :
    Refused system thread (.advance thread seen) invalid
  | crowded (session : DesktopRoomCommandSession) (request : CommandConfirmationRequest)
    (seen : Seen) (hthread : system.threads thread = .registering session request)
    (h : maximumPendingConfirmations ≤
      system.state.registry.pending.size + system.state.registry.ready.size) :
    Refused system thread (.advance thread seen) unavailable

/-- The thread takes the resolution of its request. -/
def Takes (system : System) (action : Action) (thread : ℕ) (requestId : String) : Prop :=
  ∃ seen session request, action = .advance thread seen ∧
    system.threads thread = .waiting session request ∧ request.requestId = requestId ∧
      system.state.resolutions[requestId]? ≠ none

/-- The owner has allowed the request while it was pending with the scope. -/
def Allowed (processId : UInt32) (actions : List Action) (requestId : String)
    (scope : CommandConfirmationScope) (decision : DesktopConfirmationDecision) : Prop :=
  ∃ before roomId, before ++ [.resolveForRoom roomId requestId decision] <+: actions ∧
    (System.run processId before).state.registry.pending[requestId]? = some scope ∧
    ((System.run processId before).state.resolveForRoom roomId requestId decision).1 =
      .ok (resolution requestId .authorizationReady)

/-- There has been room for the terminal records. -/
def BelowCapacity (processId : UInt32) (actions : List Action) : Prop :=
  ∀ before, before <+: actions →
    (System.run processId before).state.registry.terminal.size < maximumTerminalConfirmations

/-- What makes a request ready, and what a grant rests on. -/
structure Consents (processId : UInt32) (actions : List Action) : Prop where
  ready : ∀ (requestId : String) (authorization : ReadyAuthorization),
    (System.run processId actions).state.registry.ready[requestId]? = some authorization →
      ∃ decision, Allowing authorization.scope (mapDecision decision) authorization.lifetime ∧
        Allowed processId actions requestId authorization.scope decision
  grants : ∀ scope ∈ (System.run processId actions).state.registry.roomSessionGrants,
    ∃ requestId, Allowed processId actions requestId scope .allowRoomSession

section Laws

variable {processId : UInt32} {system : System} {actions : List Action}

/-- There was room in every shorter run. -/
theorem BelowCapacity.prefix {before : List Action} (h : BelowCapacity processId actions)
    (hbefore : before <+: actions) : BelowCapacity processId before :=
  fun _ hpre => h _ (hpre.trans hbefore)

/-- There is room at the end of the run. -/
theorem BelowCapacity.room (h : BelowCapacity processId actions) :
    (System.run processId actions).state.registry.terminal.size < maximumTerminalConfirmations :=
  h actions (List.prefix_refl _)

/-- The requests are kept apart along every run that has room. -/
theorem requests_run (h : BelowCapacity processId actions) :
    Requests processId (System.run processId actions) := by
  induction actions using List.reverseRecOn with
  | nil => exact requests_initial
  | append_singleton actions action ih =>
    have hbefore := h.prefix (List.prefix_append actions [action])
    rw [run_append_singleton]
    exact (ih hbefore).step (sessions_run actions) hbefore.room action

/-- What was allowed stays so in a longer run. -/
theorem Allowed.mono {later : List Action} {requestId : String} {scope : CommandConfirmationScope}
    {decision : DesktopConfirmationDecision}
    (h : Allowed processId actions requestId scope decision) (hlater : actions <+: later) :
    Allowed processId later requestId scope decision := by
  obtain ⟨before, roomId, hpre, hallowed⟩ := h
  exact ⟨before, roomId, hpre.trans hlater, hallowed⟩

/-- A decision for a room leaves the registry as it is, or resolves the request. -/
theorem resolveForRoom_registry (roomId requestId : String)
    (decision : DesktopConfirmationDecision) (state : DesktopCommandConfirmationState) :
    (state.resolveForRoom roomId requestId decision).2.registry = state.registry ∨
      ∃ outcome, (state.resolveForRoom roomId requestId decision).1 =
          .ok (resolution requestId outcome) ∧
        state.registry.resolve requestId (mapDecision decision) =
          (.ok outcome, (state.resolveForRoom roomId requestId decision).2.registry) := by
  unfold DesktopCommandConfirmationState.resolveForRoom
  split
  · exact .inl rfl
  dsimp only
  split
  · exact .inl rfl
  unfold DesktopCommandConfirmationState.applyDecision
  have hstep := resolve_step state.registry requestId (mapDecision decision)
  rcases hresolve : state.registry.resolve requestId (mapDecision decision) with ⟨_ | _, registry'⟩
  · rw [hresolve] at hstep
    cases hstep with
    | resolveRefused => exact .inl rfl
  · exact .inr ⟨_, rfl, rfl⟩

/-- Only a decision for a room makes a request ready, or gives a grant. -/
theorem step_registry (hsessions : Sessions processId system) (h : Requests processId system)
    (hroom : system.state.registry.terminal.size < maximumTerminalConfirmations)
    {action : Action}
    (haction : ∀ roomId requestId decision, action ≠ .resolveForRoom roomId requestId decision) :
    (∀ (requestId : String) (authorization : ReadyAuthorization),
      (system.step processId action).state.registry.ready[requestId]? = some authorization →
        system.state.registry.ready[requestId]? = some authorization) ∧
      ∀ scope ∈ (system.step processId action).state.registry.roomSessionGrants,
        scope ∈ system.state.registry.roomSessionGrants := by
  -- The end of a session only takes entries away.
  have hwithout : ∀ roomId,
      (∀ (requestId : String) (authorization : ReadyAuthorization),
        (system.state.withoutRoom roomId).registry.ready[requestId]? = some authorization →
          system.state.registry.ready[requestId]? = some authorization) ∧
        ∀ scope ∈ (system.state.withoutRoom roomId).registry.roomSessionGrants,
          scope ∈ system.state.registry.roomSessionGrants := by
    intro roomId
    unfold DesktopCommandConfirmationState.withoutRoom
    split
    · exact ⟨fun _ _ => id, fun _ => id⟩
    · exact ⟨fun requestId authorization hready =>
        (((withoutSession_lookups _ _ requestId).2.1 authorization).mp hready).1,
        fun scope hscope => (Finset.mem_filter.mp hscope).1⟩
  cases action with
  | beginRoomSession thread roomId workspace =>
    unfold System.step System.beginRoomSession
    dsimp only
    split
    · split_ifs
      · exact ⟨fun _ _ => id, fun _ => id⟩
      · split <;> exact ⟨fun _ _ => id, fun _ => id⟩
    · exact ⟨fun _ _ => id, fun _ => id⟩
  | waitForRoomAuthorization thread roomId command targetLabel =>
    unfold System.step
    dsimp only
    split
    · split_ifs <;> exact ⟨fun _ _ => id, fun _ => id⟩
    · exact ⟨fun _ _ => id, fun _ => id⟩
  | resolveForRoom roomId requestId decision => exact absurd rfl (haction roomId requestId decision)
  | timeout requestId =>
    unfold System.step DesktopCommandConfirmationState.timeout
      DesktopCommandConfirmationState.applyDecision
    have hstep := resolve_step system.state.registry requestId .timedOut
    dsimp only
    rcases hresolve : system.state.registry.resolve requestId .timedOut with ⟨answer, registry'⟩
    rw [hresolve] at hstep
    cases hstep with
    -- A timeout allows nothing.
    | allow _ _ _ _ _ hallowing => cases hallowing
    | _ => exact ⟨fun _ _ => id, fun _ => id⟩
  | endRoomSession roomId =>
    unfold System.step
    dsimp only
    rcases endRoomSession_cases roomId system.state with heq | heq <;> rw [heq]
    · exact ⟨fun _ _ => id, fun _ => id⟩
    · exact hwithout roomId
  | advance thread seen =>
    have hprogress := advance_progress hsessions h hroom thread seen
    unfold System.step
    dsimp only
    generalize system.advance processId thread seen = system' at hprogress ⊢
    cases hprogress with
    | opened session =>
      rw [System.setThread_state, replaceRoomSession_eq]
      exact hwithout session.roomId
    | ended roomId => exact hwithout roomId
    | waits _ _ state' _ _ _ hregistry =>
      rw [System.setThread_state, hregistry]
      exact ⟨fun _ _ => id, fun _ => id⟩
    -- The conclusion takes the entry of its own request away, and keeps every other.
    | concluded session request outcome state' _ _ hcloses =>
      refine ⟨fun requestId authorization hready => ?_, fun scope hscope => ?_⟩
      · rw [System.setThread_state] at hready
        by_cases hid : requestId = request.requestId
        · subst hid
          rw [hcloses.clear.ready] at hready
          cases hready
        · rwa [hcloses.elsewhere.ready requestId hid] at hready
      · rwa [System.setThread_state, hcloses.grants] at hscope
    | _ => exact ⟨fun _ _ => id, fun _ => id⟩

/-- What is ready was allowed, and so is every grant. -/
theorem consents_run (h : BelowCapacity processId actions) : Consents processId actions := by
  induction actions using List.reverseRecOn with
  | nil =>
    refine ⟨?_, ?_⟩ <;> simp [System.run, System.initial, DesktopCommandConfirmationState.empty,
      CommandConfirmationRegistry.empty]
  | append_singleton actions action ih =>
    have hpre := List.prefix_append actions [action]
    have hbefore := h.prefix hpre
    have hconsents := ih hbefore
    -- What was ready before, and the grants that stood.
    have hready : ∀ (requestId : String) (authorization : ReadyAuthorization),
        (System.run processId actions).state.registry.ready[requestId]? = some authorization →
          ∃ decision, Allowing authorization.scope (mapDecision decision) authorization.lifetime ∧
            Allowed processId (actions ++ [action]) requestId authorization.scope decision := by
      intro requestId authorization hready
      obtain ⟨decision, hallowing, hallowed⟩ := hconsents.ready requestId authorization hready
      exact ⟨decision, hallowing, hallowed.mono hpre⟩
    have hgrants : ∀ scope ∈ (System.run processId actions).state.registry.roomSessionGrants,
        ∃ requestId, Allowed processId (actions ++ [action]) requestId scope .allowRoomSession := by
      intro scope hscope
      obtain ⟨requestId, hallowed⟩ := hconsents.grants scope hscope
      exact ⟨requestId, hallowed.mono hpre⟩
    by_cases hdecision : ∃ roomId requestId decision,
        action = .resolveForRoom roomId requestId decision
    · obtain ⟨roomId, decidedId, decision, rfl⟩ := hdecision
      have hstate : (System.run processId
          (actions ++ [.resolveForRoom roomId decidedId decision])).state =
            ((System.run processId actions).state.resolveForRoom roomId decidedId decision).2 := by
        rw [run_append_singleton]
        rfl
      rcases resolveForRoom_registry roomId decidedId decision (System.run processId actions).state
        with heq | ⟨outcome, hresult, hresolve⟩
      · refine ⟨fun requestId authorization => ?_, fun scope => ?_⟩
        · rw [hstate, heq]
          exact hready requestId authorization
        · rw [hstate, heq]
          exact hgrants scope
      · have hstep := resolve_step (System.run processId actions).state.registry decidedId
          (mapDecision decision)
        rw [hresolve, ← hstate] at hstep
        generalize hregistry' : (System.run processId
          (actions ++ [.resolveForRoom roomId decidedId decision])).state.registry =
            registry' at hstep
        have hallowed : ∀ scope,
            (System.run processId actions).state.registry.pending[decidedId]? = some scope →
              outcome = .authorizationReady →
                Allowed processId (actions ++ [.resolveForRoom roomId decidedId decision]) decidedId
                  scope decision := by
          rintro scope hpending rfl
          exact ⟨actions, roomId, List.prefix_refl _, hpending, hresult⟩
        cases hstep with
        | allow _ scope _ lifetime hpending hallowing =>
          refine ⟨fun requestId authorization hafter => ?_, fun other hother => ?_⟩
          · rw [hregistry'] at hafter
            rcases getElem?_insert_eq_some.mp hafter with ⟨rfl, rfl⟩ | ⟨-, hafter⟩
            · exact ⟨decision, hallowing, hallowed scope hpending rfl⟩
            · exact hready requestId authorization hafter
          · rw [hregistry'] at hother
            have hgrant : lifetime = .roomSession → decision = .allowRoomSession := by
              rintro rfl
              cases decision <;> cases hallowing
              rfl
            dsimp only at hother
            split_ifs at hother with hlifetime
            · rcases Finset.mem_insert.mp hother with rfl | hother
              · obtain rfl := hgrant hlifetime
                exact ⟨decidedId, hallowed other hpending rfl⟩
              · exact hgrants other hother
            · exact hgrants other hother
        | deny =>
          refine ⟨fun requestId authorization hafter => ?_, fun other hother => ?_⟩
          · rw [hregistry'] at hafter
            exact hready requestId authorization hafter
          · rw [hregistry'] at hother
            exact hgrants other hother
    · have hsessions := @sessions_run processId actions
      have hstep := step_registry hsessions (requests_run hbefore) hbefore.room
        fun roomId requestId decision heq => hdecision ⟨roomId, requestId, decision, heq⟩
      rw [← run_append_singleton] at hstep
      exact ⟨fun requestId authorization hafter => hready requestId authorization
        (hstep.1 requestId authorization hafter), fun scope hscope => hgrants scope
        (hstep.2 scope hscope)⟩

/-- A step changes only its own thread. -/
theorem Progress.threads {thread other : ℕ} {system' : System}
    (h : Progress processId system thread system') (hne : other ≠ thread) :
    system'.threads other = system.threads other := by
  cases h <;> simp [System.setThread_threads, hne]

/-- How a thread changes with an action: not at all, with a call, or with its own step. -/
theorem step_thread (hsessions : Sessions processId system) (h : Requests processId system)
    (hroom : system.state.registry.terminal.size < maximumTerminalConfirmations) (action : Action)
    (thread : ℕ) :
    (system.step processId action).threads thread = system.threads thread ∨
    (system.threads thread = .idle ∧
      ((∃ session, (system.step processId action).threads thread = .opening session) ∨
      (∃ roomId command targetLabel,
        (system.step processId action).threads thread = .looking roomId command targetLabel) ∨
      ∃ roomId command targetLabel,
        action = .waitForRoomAuthorization thread roomId command targetLabel ∧
        validIdentifier roomId = false ∧
        (system.step processId action).threads thread = .returned none (.error invalid))) ∨
    ∃ seen, action = .advance thread seen ∧
      Progress processId system thread (system.step processId action) := by
  -- An idle thread may begin something, and only `advance` moves the others.
  cases action with
  | beginRoomSession other roomId workspace =>
    unfold System.step System.beginRoomSession
    dsimp only
    split
    · next hidle =>
      split_ifs
      · exact .inl rfl
      · split
        · exact .inl rfl
        · rw [System.setThread_threads]
          split_ifs with heq
          · exact .inr (.inl ⟨heq ▸ hidle, .inl ⟨_, rfl⟩⟩)
          · exact .inl rfl
    · exact .inl rfl
  | waitForRoomAuthorization other roomId command targetLabel =>
    unfold System.step
    dsimp only
    split
    · next hidle =>
      split_ifs with hinvalid <;> rw [System.setThread_threads] <;> split_ifs with heq
      · subst heq
        exact .inr (.inl ⟨hidle, .inr (.inr ⟨_, _, _, rfl, by simpa using hinvalid, rfl⟩)⟩)
      · exact .inl rfl
      · exact .inr (.inl ⟨heq ▸ hidle, .inr (.inl ⟨_, _, _, rfl⟩)⟩)
      · exact .inl rfl
    · exact .inl rfl
  | advance other seen =>
    have hprogress := advance_progress hsessions h hroom other seen
    by_cases heq : thread = other
    · subst heq
      exact .inr (.inr ⟨seen, rfl, hprogress⟩)
    · exact .inl (hprogress.threads heq)
  | resolveForRoom | timeout | endRoomSession => exact .inl rfl

/-- What a thread returns, and what that rests on. -/
inductive Return (system : System) (thread : ℕ) : Action → Option String → WaitResult → Prop
  | refused (action : Action) (requestId : Option String) (e : DesktopCommandConfirmationError)
    (h : Refused system thread action e) : Return system thread action requestId (.error e)
  | missed (action : Action) : Return system thread action none (.ok .roomSessionEnded)
  | concluded (action : Action) (session : DesktopRoomCommandSession)
    (request : CommandConfirmationRequest) (outcome : DesktopCommandAuthorizationOutcome)
    (hthread : system.threads thread = .registering session request ∨
      system.threads thread = .waiting session request)
    (hconcluded : Concluded system.state session request outcome) :
    Return system thread action (some request.requestId) (.ok outcome)

/-- A call returns in one of the listed ways. -/
theorem Returns.cases (hsessions : Sessions processId system) (h : Requests processId system)
    (hroom : system.state.registry.terminal.size < maximumTerminalConfirmations) {action : Action}
    {thread : ℕ} {requestId : Option String} {result : WaitResult}
    (hreturns : Returns processId system action thread requestId result) :
    Return system thread action requestId result := by
  obtain ⟨hbefore, hafter⟩ := hreturns
  -- A thread that returns now has either been refused at the start or made a step itself.
  rcases step_thread hsessions h hroom action thread with heq |
    ⟨-, ⟨session, heq⟩ | ⟨roomId, command, targetLabel, heq⟩ |
      ⟨roomId, command, targetLabel, rfl, hinvalid, heq⟩⟩ | ⟨seen, rfl, hprogress⟩
  · rw [heq] at hafter
    exact absurd hafter (hbefore requestId result)
  · rw [heq] at hafter
    cases hafter
  · rw [heq] at hafter
    cases hafter
  · rw [heq] at hafter
    cases hafter
    exact .refused _ _ _ (.room roomId command targetLabel hinvalid)
  generalize system.step processId (.advance thread seen) = system' at hprogress hafter
  cases hprogress with
  | rest | waitsOn => exact absurd hafter (hbefore requestId result)
  -- These steps do not return.
  | opened | found | stale | current | numbered | waits =>
    rw [System.setThread_threads, if_pos rfl] at hafter
    cases hafter
  | missed | ended =>
    rw [System.setThread_threads, if_pos rfl] at hafter
    cases hafter
    exact .missed _
  | exhausted session command targetLabel hthread hlast =>
    rw [System.setThread_threads, if_pos rfl] at hafter
    cases hafter
    exact .refused _ _ _ (.numbers session command targetLabel seen hthread hlast)
  | unlabelled session command targetLabel hthread _ hlabel =>
    rw [System.setThread_threads, if_pos rfl] at hafter
    cases hafter
    exact .refused _ _ _ (.targetLabel session command targetLabel seen hthread hlabel)
  | crowded session request hthread hfull =>
    rw [System.setThread_threads, if_pos rfl] at hafter
    cases hafter
    exact .refused _ _ _ (.crowded session request seen hthread hfull)
  | concluded session request outcome _ hthread hconcluded =>
    rw [System.setThread_threads, if_pos rfl] at hafter
    cases hafter
    exact .concluded _ session request outcome hthread hconcluded

/-- A session that is held and not active does not become active again. -/
theorem inactive_step (hsessions : Sessions processId system) (h : Requests processId system)
    (hroom : system.state.registry.terminal.size < maximumTerminalConfirmations) (action : Action)
    {session : DesktopRoomCommandSession} (hheld : system.Holds session)
    (hinactive : ¬Active system.state session) :
    ¬Active (system.step processId action).state session := by
  -- Where the sessions of the rooms stay the same, the session stays inactive.
  have hsame : ∀ state : DesktopCommandConfirmationState,
      state.roomSessions = system.state.roomSessions → ¬Active state session := by
    intro state hrooms
    rwa [Active, hrooms]
  have hwithout : ∀ roomId, ¬Active (system.state.withoutRoom roomId) session :=
    fun roomId hactive =>
    hinactive ((withoutRoom_rooms roomId _ _ _).mp hactive).2
  cases action with
  | beginRoomSession thread roomId workspace =>
    refine hsame _ ?_
    unfold System.step System.beginRoomSession
    dsimp only
    split
    · split_ifs
      · rfl
      · split <;> rfl
    · rfl
  | waitForRoomAuthorization thread roomId command targetLabel =>
    refine hsame _ ?_
    unfold System.step
    dsimp only
    split
    · split_ifs <;> rfl
    · rfl
  | advance thread seen =>
    have hprogress := advance_progress hsessions h hroom thread seen
    unfold System.step
    dsimp only
    generalize system.advance processId thread seen = system' at hprogress ⊢
    cases hprogress with
    | opened opened hthread =>
      rw [System.setThread_state, replaceRoomSession_eq]
      intro hactive
      rcases getElem?_insert_eq_some.mp hactive with ⟨-, rfl⟩ | ⟨-, hactive⟩
      -- A session that is held is not one that is being opened.
      · exact (hsessions.opening thread session hthread).1 hheld
      · exact hwithout _ hactive
    | ended roomId => exact hwithout roomId
    | waits _ _ _ _ hstate => exact hsame _ hstate.rooms
    | concluded _ _ _ _ _ _ hcloses => exact hsame _ hcloses.elsewhere.rooms
    | _ => exact hinactive
  | resolveForRoom roomId requestId decision =>
    refine hsame _ ?_
    change (system.state.resolveForRoom roomId requestId decision).2.roomSessions = _
    rcases resolveForRoom_cases roomId requestId decision system.state with heq | heq <;> rw [heq]
    exact applyDecision_rooms _ _ _
  | timeout requestId => exact hsame _ (applyDecision_rooms requestId .timedOut system.state)
  | endRoomSession roomId =>
    change ¬Active (system.state.endRoomSession roomId).2 session
    rcases endRoomSession_cases roomId system.state with heq | heq <;> rw [heq]
    · exact hinactive
    · exact hwithout roomId

/-- The thread can only return that its session has ended. -/
def Doomed (system : System) (thread : ℕ) (session : DesktopRoomCommandSession) : Prop :=
  ((system.threads thread).session? = some session ∧ ¬Active system.state session) ∨
    ∃ requestId result, system.threads thread = .returned requestId result ∧
      ∀ outcome, result = .ok outcome → outcome = .roomSessionEnded

/-- A thread whose session has ended stays doomed. -/
theorem Doomed.step (hsessions : Sessions processId system) (h : Requests processId system)
    (hroom : system.state.registry.terminal.size < maximumTerminalConfirmations) (action : Action)
    {thread : ℕ} {session : DesktopRoomCommandSession} (hdoomed : Doomed system thread session) :
    Doomed (system.step processId action) thread session := by
  have hthreads := step_thread hsessions h hroom action thread
  rcases hdoomed with ⟨hsession, hinactive⟩ | ⟨requestId, result, hreturned, houtcome⟩
  · have hafter := inactive_step hsessions h hroom action (.inr ⟨thread, hsession⟩) hinactive
    rcases hthreads with heq | ⟨hidle, -⟩ | ⟨seen, rfl, hprogress⟩
    · exact .inl ⟨by rw [heq]; exact hsession, hafter⟩
    · rw [hidle] at hsession
      cases hsession
    generalize system.step processId (.advance thread seen) = system' at hprogress hafter
    -- A step keeps the thread in the session that has ended, or it returns with that as the
    -- outcome.
    have hnext : ∀ {next : Thread}, next.session? = some session →
        ∀ {state : DesktopCommandConfirmationState} {number : ℕ}, ¬Active state session →
          Doomed ({ system with state, nextRequestSequence := number }.setThread thread next) thread
            session := by
      intro next hnext state number hstate
      exact .inl ⟨by rw [System.setThread_threads, if_pos rfl]; exact hnext, hstate⟩
    have hends : ∀ {requestId : Option String} {result : WaitResult}
        {state : DesktopCommandConfirmationState} {number : ℕ},
        (∀ outcome, result = .ok outcome → outcome = .roomSessionEnded) →
          Doomed ({ system with state, nextRequestSequence := number }.setThread thread
            (.returned requestId result)) thread session := by
      intro requestId result state number houtcome
      exact .inr ⟨requestId, result, by rw [System.setThread_threads, if_pos rfl], houtcome⟩
    cases hprogress with
    | rest hrest =>
      rcases hrest with hidle | ⟨_, _, hreturned⟩
      · rw [hidle] at hsession
        cases hsession
      · rw [hreturned] at hsession
        cases hsession
    | waitsOn => exact .inl ⟨hsession, hinactive⟩
    | opened _ hthread | missed _ _ _ hthread | found _ _ _ _ hthread =>
      rw [hthread] at hsession
      cases hsession
    | stale _ _ _ _ hthread | current _ _ _ _ hthread | numbered _ _ _ _ hthread
    | waits _ _ _ hthread =>
      rw [hthread] at hsession
      refine hnext ?_ hafter
      exact hsession
    | ended => exact hends fun outcome heq => (Except.ok.inj heq).symm
    | exhausted | unlabelled | crowded => exact hends fun outcome heq => by cases heq
    | concluded held request outcome _ hthread hconcluded =>
      obtain rfl : held = session := by
        rcases hthread with hthread | hthread <;> rw [hthread] at hsession <;>
          exact Option.some.inj hsession
      refine hends fun other heq => ?_
      obtain rfl := Except.ok.inj heq
      -- A decision needs an active session, so the end of the session is the only outcome that is
      -- left.
      cases hconcluded with
      | authorized _ _ hactive | denied _ hactive => exact absurd hactive hinactive
      | ended => rfl
  -- What was returned is not changed any more.
  · refine .inr ⟨requestId, result, ?_, houtcome⟩
    rcases hthreads with heq | ⟨hidle, -⟩ | ⟨seen, rfl, hprogress⟩
    · rw [heq, hreturned]
    · rw [hidle] at hreturned
      cases hreturned
    generalize system.step processId (.advance thread seen) = system' at hprogress
    cases hprogress with
    | rest => exact hreturned
    | concluded _ _ _ _ hthread =>
      rcases hthread with hthread | hthread <;> simp [hthread] at hreturned
    | _ => simp_all

/-- What has happened to a thread stays: that it has made a request, and that it has returned. -/
theorem step_keeps (hsessions : Sessions processId system) (h : Requests processId system)
    (hroom : system.state.registry.terminal.size < maximumTerminalConfirmations) (action : Action)
    (thread : ℕ) :
    (∀ requestId, (system.threads thread).requestId? = some requestId →
      ((system.step processId action).threads thread).requestId? = some requestId) ∧
    ∀ requestId result, system.threads thread = .returned requestId result →
      (system.step processId action).threads thread = .returned requestId result := by
  rcases step_thread hsessions h hroom action thread with heq | ⟨hidle, -⟩ | ⟨seen, rfl, hprogress⟩
  · rw [heq]
    exact ⟨fun _ => id, fun _ _ => id⟩
  · rw [hidle]
    exact ⟨fun _ hid => (nomatch hid), fun _ _ hreturned => nomatch hreturned⟩
  generalize system.step processId (.advance thread seen) = system' at hprogress
  cases hprogress with
  | rest | waitsOn => exact ⟨fun _ => id, fun _ _ => id⟩
  | concluded _ _ _ _ hthread =>
    rw [System.setThread_threads, if_pos rfl]
    rcases hthread with hthread | hthread <;> rw [hthread] <;>
      exact ⟨fun _ => id, fun _ _ hreturned => nomatch hreturned⟩
  | crowded _ _ hthread | waits _ _ _ hthread =>
    rw [System.setThread_threads, if_pos rfl, hthread]
    exact ⟨fun _ => id, fun _ _ hreturned => nomatch hreturned⟩
  | opened _ hthread | missed _ _ _ hthread | found _ _ _ _ hthread | stale _ _ _ _ hthread
  | current _ _ _ _ hthread | ended _ _ hthread | exhausted _ _ _ hthread
  | unlabelled _ _ _ hthread | numbered _ _ _ _ hthread =>
    rw [hthread]
    exact ⟨fun _ hid => (nomatch hid), fun _ _ hreturned => nomatch hreturned⟩

/-- A thread keeps its request, and a call that returned has returned for good. -/
theorem run_keeps {before : List Action} (h : BelowCapacity processId actions)
    (hbefore : before <+: actions) (thread : ℕ) :
    (∀ requestId, ((System.run processId before).threads thread).requestId? = some requestId →
      ((System.run processId actions).threads thread).requestId? = some requestId) ∧
    ∀ requestId result, (System.run processId before).threads thread = .returned requestId result →
      (System.run processId actions).threads thread = .returned requestId result := by
  obtain ⟨later, rfl⟩ := hbefore
  induction later using List.reverseRecOn with
  | nil => exact ⟨fun _ hid => by simpa using hid, fun _ _ hreturned => by simpa using hreturned⟩
  | append_singleton later action ih =>
    rw [← List.append_assoc] at h ⊢
    have hpre := h.prefix (List.prefix_append (before ++ later) [action])
    have hkeeps := step_keeps (sessions_run _) (requests_run hpre) hpre.room action thread
    obtain ⟨hids, hreturned⟩ := ih hpre
    rw [run_append_singleton]
    exact ⟨fun requestId hid => hkeeps.1 requestId (hids requestId hid),
      fun requestId result h => hkeeps.2 requestId result (hreturned requestId result h)⟩

/-- A thread whose session has ended stays doomed along the run. -/
theorem doomed_run {before : List Action} (h : BelowCapacity processId actions)
    (hbefore : before <+: actions) {thread : ℕ} {session : DesktopRoomCommandSession}
    (hdoomed : Doomed (System.run processId before) thread session) :
    Doomed (System.run processId actions) thread session := by
  obtain ⟨later, rfl⟩ := hbefore
  induction later using List.reverseRecOn with
  | nil => simpa using hdoomed
  | append_singleton later action ih =>
    rw [← List.append_assoc] at h ⊢
    have hpre := h.prefix (List.prefix_append (before ++ later) [action])
    rw [run_append_singleton]
    exact (ih hpre).step (sessions_run _) (requests_run hpre) hpre.room action

/-- A thread that takes the resolution of its request returns. -/
theorem Takes.returns (hsessions : Sessions processId system) (h : Requests processId system)
    (hroom : system.state.registry.terminal.size < maximumTerminalConfirmations) {action : Action}
    {thread : ℕ} {requestId : String} (htakes : Takes system action thread requestId) :
    (system.threads thread).requestId? = some requestId ∧
      ∃ result, (system.step processId action).threads thread =
        .returned (some requestId) result := by
  obtain ⟨seen, session, request, rfl, hthread, rfl, hresolution⟩ := htakes
  refine ⟨by rw [hthread]; rfl, ?_⟩
  have hprogress := advance_progress hsessions h hroom thread seen
  unfold System.step
  dsimp only
  generalize system.advance processId thread seen = system' at hprogress ⊢
  cases hprogress with
  | waitsOn _ _ hwaiting hnone =>
    rw [hthread] at hwaiting
    obtain ⟨rfl, rfl⟩ := Thread.waiting.inj hwaiting
    exact absurd hnone hresolution
  | concluded _ other outcome _ hwaiting =>
    have hsame := hwaiting.resolve_left (by simp [hthread])
    rw [hthread] at hsame
    obtain ⟨rfl, rfl⟩ := Thread.waiting.inj hsame
    exact ⟨_, by rw [System.setThread_threads, if_pos rfl]⟩
  | rest hrest => rcases hrest with hidle | ⟨_, _, hreturned⟩ <;> simp_all
  | _ => simp_all

end Laws

/-- What a thread can rely on that waits for consent. -/
structure WaiterLaws (processId : UInt32) (actions : List Action) : Prop where
  /-- It returns an error only before its request is registered. -/
  refused : ∀ action thread requestId e,
    Returns processId (System.run processId actions) action thread requestId (.error e) →
      Refused (System.run processId actions) thread action e
  /-- It is authorized only while its session is the one of its room, and when the owner has allowed
  the request, or a request of the same scope for the session. -/
  authorized : ∀ action thread requestId authorization,
    Returns processId (System.run processId actions) action thread requestId
        (.ok (.authorized authorization)) →
      ∃ session request,
        ((System.run processId actions).threads thread = .registering session request ∨
          (System.run processId actions).threads thread = .waiting session request) ∧
        Active (System.run processId actions).state session ∧ InSession request.scope session ∧
        authorization.requestId = request.requestId ∧ authorization.scope = request.scope ∧
        ((∃ decision, Allowing request.scope (mapDecision decision) authorization.lifetime ∧
          Allowed processId actions request.requestId request.scope decision) ∨
        authorization.lifetime = .roomSession ∧
          ∃ other, Allowed processId actions other request.scope .allowRoomSession)
  /-- When its session has ended before it returns, it returns just that, if not an error. -/
  ended : ∀ before thread session, before <+: actions →
    ((System.run processId before).threads thread).session? = some session →
      ¬Active (System.run processId before).state session →
        ∀ requestId outcome,
          (System.run processId actions).threads thread = .returned requestId (.ok outcome) →
            outcome = .roomSessionEnded
  /-- The resolution of a request is taken at most once. -/
  taken : ∀ first second action action' thread thread' requestId,
    first ++ [action] <+: actions → second ++ [action'] <+: actions →
      Takes (System.run processId first) action thread requestId →
        Takes (System.run processId second) action' thread' requestId →
          thread = thread' ∧ first = second
  /-- Once it has returned, only the terminal record of its request is left. -/
  clear : ∀ thread requestId result,
    (System.run processId actions).threads thread = .returned (some requestId) result →
      Clear (System.run processId actions).state requestId

/-- They hold after all actions, in any order, as long as there is room for terminal records. -/
theorem waiter_laws (processId : UInt32) (actions : List Action)
    (h : BelowCapacity processId actions) : WaiterLaws processId actions := by
  have hsessions := @sessions_run processId actions
  have hrequests := requests_run h
  have hconsents := consents_run h
  refine ⟨fun action thread requestId e hreturns => ?_,
    fun action thread requestId authorization hreturns => ?_,
    fun before thread session hbefore hsession hinactive requestId outcome hreturned => ?_,
    fun first second action action' thread thread' requestId hfirst hsecond htakes htakes' => ?_,
    fun thread requestId result hreturned => ?_⟩
  · cases hreturns.cases hsessions hrequests h.room with
    | refused _ _ hrefused => exact hrefused
  · cases hreturns.cases hsessions hrequests h.room with
    | concluded session request _ hthread hconcluded =>
      have hin := hrequests.inSession thread session request hthread
      cases hconcluded with
      | authorized lifetime hready hactive =>
        refine ⟨session, request, hthread, hactive, hin, rfl, rfl, ?_⟩
        rcases hready with hready | ⟨rfl, hgrant⟩
        · exact .inl (hconsents.ready request.requestId _ hready)
        · exact .inr ⟨rfl, hconsents.grants request.scope hgrant⟩
  · rcases doomed_run h hbefore (.inl ⟨hsession, hinactive⟩) with ⟨hheld, -⟩ | ⟨_, _, heq, houtcome⟩
    · rw [hreturned] at hheld
      cases hheld
    · rw [hreturned] at heq
      obtain ⟨rfl, rfl⟩ := Thread.returned.inj heq
      exact houtcome outcome rfl
  · have hroom := h.prefix ((List.prefix_append first [action]).trans hfirst)
    have hroom' := h.prefix ((List.prefix_append second [action']).trans hsecond)
    obtain ⟨hid, result, hreturned⟩ := htakes.returns (sessions_run first) (requests_run hroom)
      hroom.room
    obtain ⟨hid', result', hreturned'⟩ := htakes'.returns (sessions_run second)
      (requests_run hroom') hroom'.room
    rw [← run_append_singleton] at hreturned hreturned'
    -- Both have the request for good, so they are one thread.
    obtain rfl : thread = thread' := hrequests.unique thread thread' requestId
      ((run_keeps h ((List.prefix_append first [action]).trans hfirst) thread).1 requestId hid)
      ((run_keeps h ((List.prefix_append second [action']).trans hsecond) thread').1 requestId hid')
    refine ⟨rfl, ?_⟩
    -- It has returned when it could take it again.
    have hearlier : ∀ {first second : List Action} {action action' : Action} {result : WaitResult},
        BelowCapacity processId second → first ++ [action] <+: second →
          (System.run processId (first ++ [action])).threads thread =
            .returned (some requestId) result →
          ¬Takes (System.run processId second) action' thread requestId := by
      rintro first second action action' result hroom hpre hreturned ⟨_, _, _, -, hthread, -⟩
      have hstays := (run_keeps hroom hpre thread).2 _ _ hreturned
      rw [hthread] at hstays
      cases hstays
    have hcomparable : ∀ {first second : List Action} {action action' : Action},
        first ++ [action] <+: actions → second ++ [action'] <+: actions →
          first.length < second.length → first ++ [action] <+: second := by
      intro first second action action' hfirst hsecond hlt
      refine List.prefix_of_prefix_length_le hfirst ((List.prefix_append _ _).trans hsecond) ?_
      simpa using hlt
    rcases Nat.lt_trichotomy first.length second.length with hlt | heq | hlt
    · exact absurd htakes' (hearlier hroom' (hcomparable hfirst hsecond hlt) hreturned)
    · exact (List.prefix_of_prefix_length_le ((List.prefix_append _ _).trans hfirst)
        ((List.prefix_append _ _).trans hsecond) heq.le).eq_of_length heq
    · exact absurd htakes (hearlier hroom (hcomparable hsecond hfirst hlt) hreturned')
  · refine hrequests.clear requestId fun other session request hthread heq => ?_
    obtain rfl : thread = other := hrequests.unique thread other requestId (by rw [hreturned]; rfl)
      (by rw [hthread, ← heq]; rfl)
    rw [hreturned] at hthread
    cases hthread

namespace Sample

/-- The workspace that is selected first. -/
def firstWorkspace : AvailableRoomWorkspace := ⟨.unix 1 2⟩

/-- The workspace that is selected next. -/
def secondWorkspace : AvailableRoomWorkspace := ⟨.unix 1 3⟩

/-- A look that sees no workspace and no timeout. -/
def nothing : Seen := ⟨none, false⟩

/-- A session is opened for a room. -/
def opened : List Action := [.beginRoomSession 0 "room-1" firstWorkspace, .advance 0 nothing]

/-- A thread asks for consent, and waits for it. -/
def asks (thread : ℕ) (targetLabel : String) : List Action :=
  [.waitForRoomAuthorization thread "room-1" .gitPush targetLabel, .advance thread nothing,
    .advance thread ⟨some firstWorkspace, false⟩, .advance thread nothing, .advance thread nothing]

/-- The owner allows what a thread asks for, and ends the session before it sees that. -/
def allowed : List Action :=
  opened ++ asks 1 "origin/main" ++
    [.resolveForRoom "room-1" "mio-command-request-7-1" .allowOnce, .endRoomSession "room-1",
      .advance 1 nothing]

/-- A thread asks without saying what for, and one more thread than can wait asks for consent. -/
def crowd : List Action :=
  opened ++ asks 1 "" ++ (List.range 33).flatMap fun i => asks (i + 2) "origin/main"

/-- The states that lead to the last one. -/
def states (actions : List Action) : List System := actions.scanl (System.step 7) .initial

/-- The state after every shorter run is among the states. -/
theorem run_mem_states {actions before : List Action} (h : before <+: actions) :
    System.run 7 before ∈ states actions := by
  unfold states System.run
  generalize System.initial = system
  induction before generalizing actions system with
  | nil => cases actions <;> simp
  | cons action before ih =>
    obtain ⟨rest, rfl⟩ := h
    rw [List.cons_append, List.scanl_cons]
    exact List.mem_cons_of_mem _ (ih (List.prefix_append before rest) _)

/-- There was room when every state of the run has room. -/
theorem belowCapacity_of_states {actions : List Action}
    (h : ((states actions).all fun system =>
      system.state.registry.terminal.size < maximumTerminalConfirmations) = true) :
    BelowCapacity 7 actions := by
  intro before hbefore
  simpa using List.all_eq_true.mp h _ (run_mem_states hbefore)

end Sample

/-- A run in which the owner allows a command, which has room and meets the laws. -/
theorem waiter_laws_sample :
    BelowCapacity 7 Sample.allowed ∧ WaiterLaws 7 Sample.allowed :=
  ⟨Sample.belowCapacity_of_states (by decide +kernel),
    waiter_laws 7 Sample.allowed (Sample.belowCapacity_of_states (by decide +kernel))⟩

example : (System.run 7 Sample.allowed).threads 1 =
    .returned (some "mio-command-request-7-1") (.ok .roomSessionEnded) := by
  decide +kernel

/-- There is room for terminal records, and a thread returns an error, because what it asks for has
no name. So does another, because too many are open. -/
theorem waiter_refused :
    BelowCapacity 7 Sample.crowd ∧
      (System.run 7 Sample.crowd).threads 1 = .returned none (.error invalid) ∧
      (System.run 7 Sample.crowd).threads 34 =
        .returned (some "mio-command-request-7-34") (.error unavailable) :=
  ⟨Sample.belowCapacity_of_states (by decide +kernel), by decide +kernel, by decide +kernel⟩

/-! ## A thread whose workspace is gone -/

/-- The next step of the thread is to end the session that it has looked up. -/
def EndsStale (system : System) (action : Action) (roomId : String)
    (session : DesktopRoomCommandSession) : Prop :=
  ∃ thread seen, action = .advance thread seen ∧ system.threads thread = .ending roomId session

/-- The session ends. Every other session stays active, with its grants and its pending requests. -/
structure EndsOnly (session : DesktopRoomCommandSession)
    (state state' : DesktopCommandConfirmationState) : Prop where
  ended : ¬Active state' session
  active : ∀ other ≠ session, Active state other → Active state' other
  grants : ∀ other ≠ session, Active state other → ∀ scope : CommandConfirmationScope,
    scope.sessionId = other.sessionId → scope ∈ state.registry.roomSessionGrants →
      scope ∈ state'.registry.roomSessionGrants
  pending : ∀ other ≠ session, Active state other →
    ∀ (requestId : String) (scope : CommandConfirmationScope), scope.sessionId = other.sessionId →
      state.registry.pending[requestId]? = some scope →
        state'.registry.pending[requestId]? = some scope

section Stale

variable {processId : UInt32} {system : System}

/-- The session of a room that another thread observed is the only one to end. -/
theorem endsOnly_withoutRoom (h : Sessions processId system) {session : DesktopRoomCommandSession}
    (hheld : system.Issued session)
    (honly : ∀ other, system.state.roomSessions[session.roomId]? = some other → other = session) :
    EndsOnly session system.state (system.state.withoutRoom session.roomId) := by
  have hrooms := withoutRoom_rooms session.roomId system.state
  -- No other session is of this room, and none has its identifier.
  have hothers : ∀ other ≠ session, Active system.state other → other.roomId ≠ session.roomId := by
    intro other hne hactive hroom
    rw [Active, hroom] at hactive
    exact hne (honly other hactive)
  have hids : ∀ other ≠ session, Active system.state other →
      other.sessionId ≠ session.sessionId := by
    intro other hne hactive hid
    exact hne (h.same other session (.inl (.inl hactive)) hheld hid)
  have hregistry : (system.state.withoutRoom session.roomId).registry = system.state.registry ∨
      (system.state.withoutRoom session.roomId).registry =
        system.state.registry.withoutSession session.sessionId := by
    unfold DesktopCommandConfirmationState.withoutRoom
    -- The room has no session, or it has this one.
    rcases hroom : system.state.roomSessions[session.roomId]? with _ | ended
    · exact .inl rfl
    · obtain rfl := honly ended hroom
      exact .inr rfl
  refine ⟨fun hactive => ((hrooms _ _).mp hactive).1 rfl,
    fun other hne hactive => (hrooms _ _).mpr ⟨hothers other hne hactive, hactive⟩,
    fun other hne hactive scope hscope hgrant => ?_,
    fun other hne hactive requestId scope hscope hpending => ?_⟩
  · rcases hregistry with heq | heq
    · rwa [heq]
    · rw [heq]
      refine Finset.mem_filter.mpr ⟨hgrant, ?_⟩
      simpa [hscope] using hids other hne hactive
  · rcases hregistry with heq | heq
    · rwa [heq]
    · rw [heq]
      refine ((withoutSession_lookups _ _ requestId).1 scope).mpr ⟨hpending, ?_⟩
      rw [hscope]
      exact hids other hne hactive

/-- A thread that ends the session of its room ends the session that it has looked up, and no other
one, exactly as long as the room has not got another one since. -/
theorem stale_waiter_laws (processId : UInt32) (actions : List Action) :
    (∀ before action rest roomId session, actions = before ++ action :: rest →
      EndsStale (System.run processId before) action roomId session →
        EndsOnly session (System.run processId before).state
          ((System.run processId before).step processId action).state) ↔
    ∀ before action rest roomId session, actions = before ++ action :: rest →
      EndsStale (System.run processId before) action roomId session →
        ∀ other, (System.run processId before).state.roomSessions[roomId]? = some other →
          other = session := by
  -- What the step does.
  have hstep : ∀ before action roomId session,
      EndsStale (System.run processId before) action roomId session →
        session.roomId = roomId ∧ (System.run processId before).Issued session ∧
          ((System.run processId before).step processId action).state =
            (System.run processId before).state.withoutRoom roomId := by
    rintro before action roomId session ⟨thread, seen, rfl, hthread⟩
    have hsessions := @sessions_run processId before
    generalize System.run processId before = system at hthread hsessions ⊢
    have hroom : session.roomId = roomId := hsessions.observed thread roomId session (by
      rw [hthread]
      rfl)
    have hissued : system.Issued session := .inl (.inr ⟨thread, by rw [hthread]; rfl⟩)
    have hvalid := (hsessions.valid session hissued).1
    rw [hroom] at hvalid
    obtain ⟨removed, hended⟩ := endRoomSession_eq hvalid system.state
    refine ⟨hroom, hissued, ?_⟩
    simp only [System.step, System.advance, hthread, hended, System.setThread_state]
  constructor
  · intro h before action rest roomId session hactions hstale other hother
    obtain ⟨hroom, -, hstate⟩ := hstep before action roomId session hstale
    have hends := h before action rest roomId session hactions hstale
    rw [hstate] at hends
    by_contra hne
    have hid := (@sessions_run processId before).room roomId other hother
    have hactive := hends.active other hne (by rw [Active, hid]; exact hother)
    exact ((withoutRoom_rooms roomId _ _ _).mp hactive).1 hid
  · intro h before action rest roomId session hactions hstale
    obtain ⟨rfl, hissued, hstate⟩ := hstep before action roomId session hstale
    rw [hstate]
    exact endsOnly_withoutRoom (sessions_run before) hissued
      (h before action rest session.roomId session hactions hstale)

end Stale

namespace Sample

/-- The first session of the room. -/
def firstSession : DesktopRoomCommandSession where
  roomId := "room-1"
  sessionId := "mio-command-session-7-1"
  workspaceKey := "unix-0000000000000001-0000000000000002"

/-- The session that replaces the first. -/
def secondSession : DesktopRoomCommandSession where
  roomId := "room-1"
  sessionId := "mio-command-session-7-2"
  workspaceKey := "unix-0000000000000001-0000000000000003"

/-- A thread finds that the workspace of its session is gone, and before it can end the session,
another one is opened for the room, and a request made in it. -/
def replaced : List Action :=
  opened ++
    [.waitForRoomAuthorization 1 "room-1" .gitPush "origin/main", .advance 1 nothing,
      .advance 1 nothing, .beginRoomSession 0 "room-1" secondWorkspace, .advance 0 nothing,
      .waitForRoomAuthorization 2 "room-1" .gitPush "origin/main", .advance 2 nothing,
      .advance 2 ⟨some secondWorkspace, false⟩, .advance 2 nothing, .advance 2 nothing]

end Sample

/-- It ends the new session, with its request. -/
theorem stale_waiter_ends_newer :
    EndsStale (System.run 7 Sample.replaced) (.advance 1 Sample.nothing) "room-1"
        Sample.firstSession ∧
      Active (System.run 7 Sample.replaced).state Sample.secondSession ∧
      (System.run 7 Sample.replaced).state.registry.pending.size = 1 ∧
      ¬Active ((System.run 7 Sample.replaced).step 7 (.advance 1 Sample.nothing)).state
        Sample.secondSession ∧
      ((System.run 7 Sample.replaced).step 7
        (.advance 1 Sample.nothing)).state.registry.pending.size = 0 := by
  refine ⟨⟨1, _, rfl, rfl⟩, ?_, by decide +kernel, ?_, by decide +kernel⟩
  · unfold Active
    decide +kernel
  · unfold Active
    decide +kernel

end Mio.Desktop.CommandConfirmations
