import Mio.Relay.RelayClient

/-!
# One connection at a time

A call that has reserved an account keeps it until its connection is dropped, or until it has
failed. While the phase of the account says so (`Reserved`), no other call reserves it, and there is
one connection at most. What breaks this is a status: when the store fails, it overwrites the phase
of an account that is reserved (`Overwrites`).
-/

namespace Mio.Relay

open Library Std Service

/-- The account that a call has reserved. -/
def Call.holds : Call → Option RelayAccountId
  | .reserved accountId | .answered accountId _ | .alive accountId | .closing accountId =>
    some accountId
  | _ => none

/-- An account is reserved by one call, and its phase says so. -/
structure Reserved (service : Service) : Prop where
  unique : ∀ call other accountId, (service.calls call).holds = some accountId →
    (service.calls other).holds = some accountId → call = other
  phase : ∀ call accountId, (service.calls call).holds = some accountId →
    (accountState service.states accountId).active = true

/-- The action is a status that overwrites the phase of an account that is reserved. -/
def Overwrites (service : Service) (action : ServiceAction) : Prop :=
  ∃ call accountId e, action = .lock call ∧ service.calls call = .checking accountId (.error e) ∧
    (accountState service.states accountId).active = true

/-- An account has one connection at most, and while it has one, its phase says so. -/
structure SingleLive (service : Service) : Prop where
  unique : ∀ call other accountId, service.calls call = .alive accountId →
    service.calls other = .alive accountId → call = other
  phase : ∀ call accountId, service.calls call = .alive accountId →
    ∃ state, service.states[accountId.value]? = some state ∧
      (state.phase = .connected ∨ state.phase = .connecting)

section Reservations

variable {service : Service}

/-- Moving a call moves no other. -/
theorem setCall_calls (service : Service) (call : ℕ) (next : Call) (other : ℕ) :
    (service.setCall call next).calls other = if other = call then
      next else service.calls other := by
  simp [setCall, Function.update_apply]

/-- What is remembered of an account is its own. -/
theorem accountState_insert (states : ConnectionStates) (accountId other : RelayAccountId)
    (state : AccountConnectionState) :
    accountState (states.insert accountId.value state) other =
      if other = accountId then state else accountState states other := by
  unfold accountState
  by_cases h : other = accountId
  · subst h
    simp
  · have hvalue : accountId.value ≠ other.value := by
      intro heq
      cases accountId
      cases other
      exact h (by simpa [eq_comm] using heq)
    rw [ExtTreeMap.getElem?_insert, if_neg, if_neg h]
    simpa using hvalue

/-- A call that has reserved no other account goes on, and writes the phase of an account that no
other call has reserved, if it writes one. -/
theorem Reserved.setCall (h : Reserved service) {call : ℕ} {next : Call} {states : ConnectionStates}
    (hnew : ∀ accountId, next.holds = some accountId →
      (accountState states accountId).active = true ∧
        ∀ other ≠ call, (service.calls other).holds ≠ some accountId)
    (hkept : ∀ other accountId, other ≠ call → (service.calls other).holds = some accountId →
      (accountState states accountId).active = true) :
    Reserved ({ service with states }.setCall call next) := by
  refine ⟨fun first second accountId hfirst hsecond => ?_, fun other accountId hother => ?_⟩
  · rw [setCall_calls] at hfirst hsecond
    split at hfirst <;> split at hsecond
    · next hf hs => exact hf.trans hs.symm
    · next hf hs => exact absurd hsecond ((hnew accountId hfirst).2 second hs)
    · next hf hs => exact absurd hfirst ((hnew accountId hsecond).2 first hf)
    · exact h.unique first second accountId hfirst hsecond
  · rw [setCall_calls] at hother
    split at hother
    · exact (hnew accountId hother).1
    · next hne => exact hkept other accountId hne hother

/-- A call without a reservation goes on without one. -/
theorem Reserved.setCall_none (h : Reserved service) {call : ℕ} {next : Call}
    (hnext : next.holds = none) : Reserved (service.setCall call next) :=
  h.setCall (fun accountId hholds => by simp [hnext] at hholds)
    fun other accountId _ hother => h.phase other accountId hother

/-- A call with a reservation keeps it. -/
theorem Reserved.setCall_same (h : Reserved service) {call : ℕ} {next : Call}
    (hnext : next.holds = (service.calls call).holds) : Reserved (service.setCall call next) :=
  h.setCall
    (fun accountId hholds => ⟨h.phase call accountId (hnext ▸ hholds), fun other hne hother =>
      hne (h.unique other call accountId hother (hnext ▸ hholds))⟩)
    fun other accountId _ hother => h.phase other accountId hother

/-- A step keeps the reservations, unless it is a status that overwrites a phase. -/
theorem Reserved.step (h : Reserved service) {action : ServiceAction}
    (haction : ¬Overwrites service action) : Reserved (service.step action) := by
  -- What the other calls have reserved is not the account of a call with a reservation.
  have hother : ∀ {call accountId} {state : AccountConnectionState},
      (service.calls call).holds = some accountId → ∀ other account, other ≠ call →
        (service.calls other).holds = some account →
          (accountState (service.states.insert accountId.value state) account).active = true := by
    intro call accountId state hcall other account hne hholds
    rw [accountState_insert, if_neg]
    · exact h.phase other account hholds
    · rintro rfl
      exact hne (h.unique other call account hholds hcall)
  cases action with
  | status call accountId contains =>
    unfold Service.step
    dsimp only
    split
    · exact h.setCall_none rfl
    · exact h
  | connect call accountId =>
    unfold Service.step RelayClientService.reserve
    dsimp only
    split
    · by_cases hactive : (accountState service.states accountId).active = true
      · simp only [hactive, if_true]
        refine ⟨h.unique, fun other account hholds => ?_⟩
        rw [accountState_insert]
        split_ifs with heq
        · exact hactive
        · exact h.phase other account hholds
      · simp only [hactive, Bool.false_eq_true, if_false]
        have hfree : ∀ other, (service.calls other).holds ≠ some accountId :=
          fun other hholds => hactive (h.phase other accountId hholds)
        refine h.setCall (fun account hholds => ?_) fun other account hne hholds => ?_
        · obtain rfl := Option.some.inj hholds
          refine ⟨?_, fun other _ => hfree other⟩
          rw [accountState_insert, if_pos rfl]
          rfl
        · rw [accountState_insert, if_neg]
          · exact h.phase other account hholds
          · rintro rfl
            exact hfree other hholds
    · exact h
  | answer call loaded connection =>
    unfold Service.step
    dsimp only
    split
    · next hcall => exact h.setCall_same (by rw [hcall]; rfl)
    · exact h
  | close call =>
    unfold Service.step
    dsimp only
    split
    · next hcall => exact h.setCall_same (by rw [hcall]; rfl)
    · exact h
  | lock call =>
    unfold Service.step
    dsimp only
    split
    · next accountId result hcall =>
      refine h.setCall (fun account hholds => by cases hholds) fun other account hne hholds => ?_
      unfold RelayClientService.status
      cases result with
      | ok stored =>
        rw [accountState_insert]
        split_ifs with heq
        · exact heq ▸ h.phase other account hholds
        · exact h.phase other account hholds
      | error e =>
        rw [accountState_insert, if_neg]
        · exact h.phase other account hholds
        · rintro rfl
          exact haction ⟨call, account, e, rfl, hcall, h.phase other account hholds⟩
    · next accountId result hcall =>
      have hholds : (service.calls call).holds = some accountId := by rw [hcall]; rfl
      unfold RelayClientService.publish
      cases result with
      | ok =>
        refine h.setCall (fun account hnext => ?_) (hother hholds)
        obtain rfl := Option.some.inj hnext
        refine ⟨?_, fun other hne hsame => hne (h.unique other call accountId hsame hholds)⟩
        rw [accountState_insert, if_pos rfl]
        rfl
      | error e => exact h.setCall (fun account hnext => by cases hnext) (hother hholds)
    · next accountId hcall =>
      have hholds : (service.calls call).holds = some accountId := by rw [hcall]; rfl
      exact h.setCall (fun account hnext => by cases hnext) (hother hholds)
    · exact h

/-- A run without such a status keeps the reservations. -/
theorem reserved_run (actions : List ServiceAction)
    (hactions : ∀ before action rest, actions = before ++ action :: rest →
      ¬Overwrites (run before) action) : Reserved (run actions) := by
  induction actions using List.reverseRecOn with
  | nil => exact ⟨by simp [run, new, Call.holds], by simp [run, new, Call.holds]⟩
  | append_singleton actions action ih =>
    have hbefore : Reserved (run actions) := by
      refine ih fun before other rest heq => hactions before other (rest ++ [action]) ?_
      rw [heq]
      simp
    have hstep := hbefore.step (hactions actions action [] rfl)
    simpa [run] using hstep

/-- With the reservations kept, there is one connection of an account at most. -/
theorem Reserved.singleLive (h : Reserved service) : SingleLive service := by
  have hholds : ∀ {call accountId}, service.calls call = .alive accountId →
      (service.calls call).holds = some accountId := by
    intro call accountId hcall
    rw [hcall]
    rfl
  refine ⟨fun call other accountId hcall hother =>
    h.unique call other accountId (hholds hcall) (hholds hother), fun call accountId hcall => ?_⟩
  have hactive := h.phase call accountId (hholds hcall)
  unfold accountState at hactive
  rcases hstate : service.states[accountId.value]? with _ | state
  · rw [hstate] at hactive
    cases hactive
  · rw [hstate] at hactive
    refine ⟨state, rfl, ?_⟩
    simpa [AccountConnectionState.active, or_comm] using hactive

end Reservations

/-- In a run without a status that overwrites the phase of a reserved account, every account has one
connection at most in every state, and while it has one, its phase says so. -/
theorem single_live (actions : List ServiceAction)
    (hactions : ∀ before action rest, actions = before ++ action :: rest →
      ¬Overwrites (run before) action) (before : List ServiceAction) (hbefore :
        before <+: actions) :
    SingleLive (run before) := by
  refine (reserved_run before fun first action rest heq => ?_).singleLive
  obtain ⟨later, rfl⟩ := hbefore
  exact hactions first action (rest ++ later) (by rw [heq]; simp)

namespace Sample

/-- The account of the examples is valid. -/
theorem account_valid : validAccountId "primary" = true := by decide

/-- The account of the examples. -/
def account : RelayAccountId := ⟨"primary", account_valid⟩

/-- A call connects. -/
def connects (call : ℕ) : List ServiceAction :=
  [.connect call account, .answer call (.ok true) (.ok ()), .lock call]

/-- A connection is made, and one more is refused until it is dropped. -/
def reconnected : List ServiceAction := connects 0 ++ connects 1 ++
    [.close 0, .lock 0] ++ connects 1

/-- The store fails in a status, while there is a connection. -/
def overwritten : List ServiceAction :=
  connects 0 ++ [.status 1 account (.error (.platform "read" 5)), .lock 1]

/-- No call of the run is a status. -/
theorem reconnected_undisturbed (before : List ServiceAction) (action : ServiceAction)
    (rest : List ServiceAction) (h : reconnected = before ++ action :: rest) :
    ¬Overwrites (run before) action := by
  have hcalls : ∀ before ∈ reconnected.inits, ∀ call < 2, ∀ accountId result,
      (run before).calls call ≠ .checking accountId result := by
    intro before hbefore call hcall accountId result
    have hnone : ∀ before ∈ reconnected.inits, ∀ call < 2,
        (match (run before).calls call with
          | .checking _ _ => false
          | _ => true) = true := by
      decide
    have hchecked := hnone before hbefore call hcall
    rintro heq
    rw [heq] at hchecked
    cases hchecked
  have hlocks : ∀ action ∈ reconnected, ∀ call, action = .lock call → call < 2 := by
    rintro action haction call rfl
    simp [reconnected, connects] at haction
    omega
  rintro ⟨call, accountId, e, rfl, hcall, -⟩
  have hmem : ServiceAction.lock call ∈ reconnected := by
    rw [h]
    simp
  refine hcalls before ?_ call (hlocks _ hmem call rfl) accountId (.error e) hcall
  rw [List.mem_inits, h]
  exact List.prefix_append _ _

end Sample

/-- A run that connects twice, one after the other: at most one call is live. -/
theorem single_live_sample :
    (∀ before action rest, Sample.reconnected = before ++ action :: rest →
      ¬Overwrites (run before) action) ∧ SingleLive (run Sample.reconnected) :=
  ⟨Sample.reconnected_undisturbed, single_live Sample.reconnected Sample.reconnected_undisturbed
    Sample.reconnected (List.prefix_refl _)⟩

/-- A connection is alive while the phase of its account is an error, and then there is another. -/
theorem status_overwrites :
    (run Sample.overwritten).calls 0 = .alive Sample.account ∧
      (accountState (run Sample.overwritten).states Sample.account).phase = .error ∧
      (run (Sample.overwritten ++ Sample.connects 1)).calls 0 = .alive Sample.account ∧
      (run (Sample.overwritten ++ Sample.connects 1)).calls 1 = .alive Sample.account := by
  decide

end Mio.Relay
