import Mio.Launcher.WindowsIsolation
import Mio.Library.GuardedProg

/-!
# The clean-up of an isolation

What each part of the isolation does to the resources. The parts come together in the order in which
they are dropped (`execute_cleanUp`).
-/

namespace Mio.Launcher

open Library

/-- Drives are dropped together. -/
def Resource.rank : Resource → ℕ
  | .job => 0
  | .toolDrive | .drive => 1
  | .grant => 2
  | .stagedTool => 3
  | .profile => 4

/-- The place of a resource among those that are acquired before it. -/
def Resource.place : Resource → ℕ
  | .job => 0
  | .toolDrive => 1
  | .drive => 2
  | .grant => 3
  | .stagedTool => 4
  | .profile => 5

/-- A call of the attempt to remove a grant or a drive is the attempt where it fails. -/
def removal (resource : Resource) (succeeded : Bool) : Option (Use Resource) :=
  if succeeded then none else some (.release resource false)

/-- What a call does. A grant may be there in part as soon as it is begun. -/
def use : Call × Bool → Option (Use Resource)
  | (.createProfile, true) => some (.acquire .profile)
  | (.deleteProfile, succeeded) => some (.release .profile succeeded)
  | (.createToolDirectory, true) => some (.acquire .stagedTool)
  | (.removeToolDirectory, succeeded) => some (.release .stagedTool succeeded)
  | (.lookup .systemDirectory .grant, _) => some (.acquire .grant)
  | (.lookup _ .removeGrant, succeeded) => removal .grant succeeded
  | (.spawn .removeGrant _, succeeded) => removal .grant succeeded
  | (.succeeds .removeGrant, succeeded) => some (.release .grant succeeded)
  | (.succeeds (.mapDrive resource _), true) => some (.acquire resource)
  | (.lookup _ (.removeDrive resource), succeeded) => removal resource succeeded
  | (.spawn (.removeDrive resource) _, succeeded) => removal resource succeeded
  | (.succeeds (.removeDrive resource), succeeded) => some (.release resource succeeded)
  | (.createJob, true) => some (.acquire .job)
  | (.closeJob, succeeded) => some (.release .job succeeded)
  | _ => none

/-- The job goes first, then the drives, the grant, the staged tool, and the profile. -/
def earlier (r other : Resource) : Prop := r.rank < other.rank

/-- The resources of a command, and what must be released before what. -/
def guarding : Guarding (Call × Bool) Resource where
  use := use
  place := Resource.place
  earlier := earlier
  injective := by
    intro r other h
    cases r <;> cases other <;> first | rfl | cases h
  lt_of_earlier := by
    intro r other h
    revert h
    unfold earlier
    cases r <;> cases other <;> decide

/-! ## Calls -/

section Calls

variable {e : WindowsCommandIsolationError} {c : Call} {statuses : Resource → Status} {r : Resource}

/-- A call that uses no resource is quiet. -/
theorem quiet_call (htrue : use (c, true) = none) (hfalse : use (c, false) = none) :
    guarding.Quiet (call c) :=
  Guarding.quiet_step htrue hfalse fun _ => Guarding.quiet_pure

/-- So is one that must succeed. -/
theorem quiet_require (htrue : use (c, true) = none) (hfalse : use (c, false) = none) :
    guarding.Quiet (require e c) :=
  Guarding.quiet_step htrue hfalse fun _ => Guarding.quiet_ite Guarding.quiet_pure
    Guarding.quiet_throw

/-- A call that acquires a resource where it succeeds. -/
theorem spec_require_acquire (htrue : use (c, true) = some (.acquire r))
    (hfalse : use (c, false) = none) (hidle : statuses r = .idle) :
    guarding.Spec (require e c) statuses (fun _ => (· = Function.update statuses r .held))
      (· = statuses) := by
  refine Guarding.spec_step ?_ ?_ ?_ ?_
  · show Allowed _ _ (use (c, true))
    rw [htrue]
    exact hidle
  · show Allowed _ _ (use (c, false))
    rw [hfalse]
    trivial
  · refine Guarding.spec_pure ?_
    show after statuses (use (c, true)) = _
    rw [htrue]
    rfl
  · refine Guarding.spec_throw ?_
    show after statuses (use (c, false)) = _
    rw [hfalse]
    rfl

/-- A resource can be released. -/
structure Due (statuses : Resource → Status) (r : Resource) : Prop where
  active : statuses r = .held ∨ statuses r = .kept
  first : ∀ other, earlier other r → statuses other ≠ .held

/-- A call of a removal that is not its last. -/
theorem spec_require_removal (htrue : use (c, true) = none)
    (hfalse : use (c, false) = some (.release r false)) (hdue : Due statuses r) :
    guarding.Spec (require e c) statuses (fun _ => (· = statuses))
      (· = Function.update statuses r .kept) := by
  refine Guarding.spec_step ?_ ?_ ?_ ?_
  · show Allowed _ _ (use (c, true))
    rw [htrue]
    trivial
  · show Allowed _ _ (use (c, false))
    rw [hfalse]
    exact ⟨hdue.active, hdue.first⟩
  · refine Guarding.spec_pure ?_
    show after statuses (use (c, true)) = _
    rw [htrue]
    rfl
  · refine Guarding.spec_throw ?_
    show after statuses (use (c, false)) = _
    rw [hfalse]
    rfl

/-- A call that releases a resource goes on whether it succeeded or not. -/
theorem spec_call_release {done : Bool → (Resource → Status) → Prop}
    {error : (Resource → Status) → Prop}
    (huse : ∀ succeeded, use (c, succeeded) = some (.release r succeeded)) (hdue : Due statuses r)
    (htrue : done true (Function.update statuses r .released))
    (hfalse : done false (Function.update statuses r .kept)) :
    guarding.Spec (call c) statuses done error := by
  have hallowed : ∀ succeeded, Allowed earlier statuses (use (c, succeeded)) := by
    intro succeeded
    rw [huse]
    exact ⟨hdue.active, hdue.first⟩
  refine Guarding.spec_step (hallowed true) (hallowed false) (Guarding.spec_pure ?_)
    (Guarding.spec_pure ?_)
  · show done true (after statuses (use (c, true)))
    rw [huse]
    exact htrue
  · show done false (after statuses (use (c, false)))
    rw [huse]
    exact hfalse

/-- A release that must succeed leaves the resource released, or kept when it fails. -/
theorem spec_require_release
    (huse : ∀ succeeded, use (c, succeeded) = some (.release r succeeded)) (hdue : Due statuses r) :
    guarding.Spec (require e c) statuses (fun _ => (· = Function.update statuses r .released))
      (· = Function.update statuses r .kept) := by
  have hcall : guarding.Spec (call c >>= fun taken => if taken then pure () else Prog.throw e)
      statuses (fun _ => (· = Function.update statuses r .released))
      (· = Function.update statuses r .kept) :=
    Guarding.spec_bind (spec_call_release huse hdue (Guarding.spec_pure rfl)
      (Guarding.spec_throw rfl))
  exact hcall

end Calls

/-! ## Releases -/

/-- What a release or a drop does: the resource is not held, the others are as before, and so is the
resource where there is nothing to release. -/
structure Drops (r : Resource) (statuses statuses' : Resource → Status) : Prop where
  settles : Settles r statuses statuses'
  finished : statuses r = .idle ∨ statuses r = .released → statuses' r = statuses r

/-- A value's release, and what the value says of its resource. -/
structure Releases {α : Type} (r : Resource) (release : α → Launch α) (active : α → Bool)
    (valid : α → Prop) : Prop where
  inactive : ∀ value, valid value → active value = false → release value = pure value
  spec : ∀ value statuses, valid value → active value = true → Due statuses r →
    guarding.Spec (release value) statuses
      (fun value' statuses' => statuses' = Function.update statuses r .released ∧
        active value' = false ∧ valid value')
      (· = Function.update statuses r .kept)

section Releases

variable {α : Type} {r : Resource} {release : α → Launch α} {active : α → Bool} {valid : α → Prop}
  {value : α} {statuses : Resource → Status}

/-- A resource that was held is dropped by a new status that is not. -/
theorem drops_update {status : Status} (hstatus : status ≠ .held)
    (hactive : statuses r = .held ∨ statuses r = .kept) :
    Drops r statuses (Function.update statuses r status) where
  settles := by
    refine ⟨?_, fun other hother => Function.update_of_ne hother _ _⟩
    rw [Function.update_self]
    exact hstatus
  finished hfinished := by
    rcases hactive with hheld | hkept
    · rw [hheld] at hfinished
      exact absurd hfinished (by decide)
    · rw [hkept] at hfinished
      exact absurd hfinished (by decide)

/-- A resource that is not active needs no drop. -/
theorem drops_self (h : Tracks statuses r false) : Drops r statuses statuses where
  settles := by
    refine ⟨fun hheld => ?_, fun _ _ => rfl⟩
    rcases h with hidle | hreleased
    · rw [hidle] at hheld
      cases hheld
    · rw [hreleased] at hheld
      cases hheld
  finished _ := rfl

/-- After an attempt the value says again what has become of its resource, and whether it failed. -/
theorem Releases.tryRelease (h : Releases r release active valid) (hvalid : valid value)
    (htracks : Tracks statuses r (active value))
    (hfirst : ∀ other, earlier other r → statuses other ≠ .held)
    {error : (Resource → Status) → Prop} :
    guarding.Spec (tryRelease release value) statuses
      (fun result statuses' => Drops r statuses statuses' ∧ valid result.1 ∧
        Tracks statuses' r (active result.1) ∧ result.2 = active result.1) error := by
  rcases hactive : active value with _ | _
  · rw [hactive] at htracks
    unfold Launcher.tryRelease
    rw [h.inactive value hvalid hactive]
    refine Guarding.spec_bind (Guarding.spec_attempt (Guarding.spec_pure (Guarding.spec_pure ?_)))
    refine ⟨drops_self htracks, hvalid, ?_, hactive.symm⟩
    rw [hactive]
    exact htracks
  · rw [hactive] at htracks
    have hdue : Due statuses r := ⟨htracks, hfirst⟩
    refine Guarding.spec_bind (Guarding.spec_attempt
      ((h.spec value statuses hvalid hactive hdue).mono ?_ ?_))
    · rintro value' _ ⟨rfl, hinactive, hvalid'⟩
      refine Guarding.spec_pure ⟨drops_update (by decide) htracks, hvalid', ?_, hinactive.symm⟩
      rw [hinactive]
      exact .inr (Function.update_self ..)
    · rintro _ rfl e
      refine Guarding.spec_pure ⟨drops_update (by decide) htracks, hvalid, ?_, hactive.symm⟩
      rw [hactive]
      exact .inr (Function.update_self ..)

/-- A drop that tries the release. -/
theorem Releases.drop (h : Releases r release active valid) (hvalid : valid value)
    (htracks : Tracks statuses r (active value))
    (hfirst : ∀ other, earlier other r → statuses other ≠ .held)
    {error : (Resource → Status) → Prop} :
    guarding.Spec (do let _ ← (release value).attempt : Launch Unit) statuses
      (fun _ => Drops r statuses) error := by
  rcases hactive : active value with _ | _
  · rw [hactive] at htracks
    rw [h.inactive value hvalid hactive]
    exact Guarding.spec_bind (Guarding.spec_attempt
      (Guarding.spec_pure (Guarding.spec_pure (drops_self htracks))))
  · rw [hactive] at htracks
    refine Guarding.spec_bind (Guarding.spec_attempt
      ((h.spec value statuses hvalid hactive ⟨htracks, hfirst⟩).mono ?_ ?_))
    · rintro value' _ ⟨rfl, -⟩
      exact Guarding.spec_pure (drops_update (by decide) htracks)
    · rintro _ rfl e
      exact Guarding.spec_pure (drops_update (by decide) htracks)

/-- A value that may be missing holds nothing then. -/
theorem Releases.tryReleaseOptional (h : Releases r release active valid) {value : Option α}
    (hvalid : ∀ a, value = some a → valid a) (htracks : Tracks statuses r (value.elim false active))
    (hfirst : ∀ other, earlier other r → statuses other ≠ .held)
    {error : (Resource → Status) → Prop} :
    guarding.Spec (tryReleaseOptional release value) statuses
      (fun result statuses' => Drops r statuses statuses' ∧
        (∀ a, result.1 = some a → valid a) ∧
        Tracks statuses' r (result.1.elim false active) ∧ result.2 = result.1.elim false active)
      error := by
  cases value with
  | none => exact Guarding.spec_pure ⟨drops_self htracks, hvalid, htracks, rfl⟩
  | some value =>
    refine Guarding.spec_bind ((h.tryRelease (hvalid value rfl) htracks hfirst).mono ?_
      fun _ h => h)
    rintro ⟨value', failed⟩ statuses' ⟨hdrops, hvalid', htracks', hfailed⟩
    refine Guarding.spec_pure ⟨hdrops, ?_, htracks', hfailed⟩
    rintro _ ⟨⟩
    exact hvalid'

/-- Dropping a resource that may be missing. -/
theorem dropOptional_spec {drop : α → Launch Unit} {error : (Resource → Status) → Prop}
    {value : Option α} (htracks : Tracks statuses r (value.elim false active))
    (hdrop : ∀ a, value = some a →
      guarding.Spec (drop a) statuses (fun _ => Drops r statuses) error) :
    guarding.Spec (dropOptional drop value) statuses (fun _ => Drops r statuses) error := by
  cases value with
  | none => exact Guarding.spec_pure (drops_self htracks)
  | some value =>
    exact Guarding.spec_bind (Guarding.spec_bind ((hdrop value rfl).mono
      (fun _ _ h => Guarding.spec_pure (Guarding.spec_pure h)) fun _ h => h))

end Releases

/-! ## The six resources -/

/-- A lookup of the program for a removal is part of the attempt. -/
theorem spec_systemCommand_removal {command : SystemCommand} {r : Resource}
    {statuses : Resource → Status}
    (huse : ∀ part succeeded, use (.lookup part command, succeeded) = removal r succeeded)
    (hdue : Due statuses r) :
    guarding.Spec (systemCommand command) statuses (fun _ => (· = statuses))
      (· = Function.update statuses r .kept) := by
  have hpart : ∀ part, guarding.Spec
      (require .systemToolUnavailable (.lookup part command)) statuses (fun _ => (· = statuses))
      (· = Function.update statuses r .kept) :=
    fun part => spec_require_removal (huse part true) (huse part false) hdue
  refine Guarding.spec_bind ((hpart _).mono ?_ fun _ h => h)
  rintro - _ rfl
  refine Guarding.spec_bind ((hpart _).mono ?_ fun _ h => h)
  rintro - _ rfl
  refine Guarding.spec_bind ((hpart _).mono ?_ fun _ h => h)
  rintro - _ rfl
  exact hpart _

/-- The three calls of a removal by a program of the system. -/
theorem spec_systemRemoval {command : SystemCommand} {arguments : List String} {r : Resource}
    {statuses : Resource → Status}
    (hlookup : ∀ part succeeded, use (.lookup part command, succeeded) = removal r succeeded)
    (hspawn : ∀ succeeded, use (.spawn command arguments, succeeded) = removal r succeeded)
    (hsucceeds : ∀ succeeded, use (.succeeds command, succeeded) = some (.release r succeeded))
    (hdue : Due statuses r) {α : Type} {value : α} {P : α → Prop} (hvalue : P value) :
    guarding.Spec (do
        systemCommand command
        require .cleanupFailed (.spawn command arguments)
        require .cleanupFailed (.succeeds command)
        pure value : Launch α) statuses
      (fun a statuses' => statuses' = Function.update statuses r .released ∧ P a)
      (· = Function.update statuses r .kept) := by
  refine Guarding.spec_bind ((spec_systemCommand_removal hlookup hdue).mono ?_ fun _ h => h)
  rintro - _ rfl
  refine Guarding.spec_bind ((spec_require_removal (hspawn true) (hspawn false) hdue).mono ?_
    fun _ h => h)
  rintro - _ rfl
  refine Guarding.spec_bind ((spec_require_release hsucceeds hdue).mono ?_ fun _ h => h)
  rintro - _ rfl
  exact Guarding.spec_pure ⟨rfl, hvalue⟩

/-- A removal by one call. -/
theorem spec_removal {c : Call} {r : Resource} {statuses : Resource → Status}
    (huse : ∀ succeeded, use (c, succeeded) = some (.release r succeeded)) (hdue : Due statuses r)
    {α : Type} {value : α} {P : α → Prop} (hvalue : P value) :
    guarding.Spec (do
        require .cleanupFailed c
        pure value : Launch α) statuses
      (fun a statuses' => statuses' = Function.update statuses r .released ∧ P a)
      (· = Function.update statuses r .kept) := by
  refine Guarding.spec_bind ((spec_require_release huse hdue).mono ?_ fun _ h => h)
  rintro - _ rfl
  exact Guarding.spec_pure ⟨rfl, hvalue⟩

/-- Deleting the profile releases it. -/
theorem profile_releases : Releases .profile AppContainerProfile.delete (·.active)
    fun _ => True where
  inactive profile _ hactive := by simp [AppContainerProfile.delete, hactive]
  spec profile statuses _ hactive hdue := by
    unfold AppContainerProfile.delete
    rw [if_neg (by simp [hactive])]
    exact spec_removal (fun _ => rfl) hdue ⟨rfl, trivial⟩

/-- Removing the folder releases it. -/
theorem stagedTool_releases : Releases .stagedTool StagedTool.remove (·.active) fun _ => True where
  inactive tool _ hactive := by simp [StagedTool.remove, hactive]
  spec tool statuses _ hactive hdue := by
    unfold StagedTool.remove
    rw [if_neg (by simp [hactive])]
    exact spec_removal (fun _ => rfl) hdue ⟨rfl, trivial⟩

/-- Taking the right away releases it. -/
theorem grant_releases : Releases .grant TemporaryAclGrant.remove (·.active) fun _ => True where
  inactive grant _ hactive := by simp [TemporaryAclGrant.remove, hactive]
  spec grant statuses _ hactive hdue := by
    unfold TemporaryAclGrant.remove
    rw [if_neg (by simp [hactive])]
    refine spec_systemRemoval ?_ (fun _ => rfl) (fun _ => rfl) hdue ⟨rfl, trivial⟩
    intro part succeeded
    cases part <;> rfl

/-- Removing the mapping releases it. -/
theorem drive_releases (r : Resource) : Releases r WorkspaceDrive.remove (·.active)
    fun drive => drive.resource = r where
  inactive drive _ hactive := by simp [WorkspaceDrive.remove, hactive]
  spec drive statuses hresource hactive hdue := by
    subst hresource
    unfold WorkspaceDrive.remove
    rw [if_neg (by simp [hactive])]
    refine spec_systemRemoval ?_ (fun _ => rfl) (fun _ => rfl) hdue ⟨rfl, rfl⟩
    intro part succeeded
    cases part <;> rfl

/-- Closing the job releases it. -/
theorem job_releases : Releases .job JobHandle.close (·.active) fun _ => True where
  inactive job _ hactive := by simp [JobHandle.close, hactive]
  spec job statuses _ hactive hdue := by
    unfold JobHandle.close
    rw [if_neg (by simp [hactive])]
    exact spec_removal (fun _ => rfl) hdue ⟨rfl, trivial⟩

section Drops

variable {statuses : Resource → Status} {error : (Resource → Status) → Prop}

/-- A drop that makes the one call of a release. -/
theorem spec_drop_call {c : Call} {r : Resource} {active : Bool}
    (huse : ∀ succeeded, use (c, succeeded) = some (.release r succeeded))
    (htracks : Tracks statuses r active)
    (hfirst : ∀ other, earlier other r → statuses other ≠ .held) :
    guarding.Spec (if active then do
        let _ ← call c
        pure ()
      else pure () : Launch Unit) statuses (fun _ => Drops r statuses) error := by
  cases active with
  | false => exact Guarding.spec_pure (drops_self htracks)
  | true =>
    exact Guarding.spec_bind (spec_call_release huse ⟨htracks, hfirst⟩
      (Guarding.spec_pure (drops_update (by decide) htracks))
      (Guarding.spec_pure (drops_update (by decide) htracks)))

/-- A dropped profile is released or kept by a failure. -/
theorem profile_drop {profile : AppContainerProfile}
    (htracks : Tracks statuses .profile profile.active)
    (hfirst : ∀ other, earlier other .profile → statuses other ≠ .held) :
    guarding.Spec profile.drop statuses (fun _ => Drops .profile statuses) error :=
  spec_drop_call (fun _ => rfl) htracks hfirst

/-- A dropped job is released or kept by a failure. -/
theorem job_drop {job : JobHandle} (htracks : Tracks statuses .job job.active)
    (hfirst : ∀ other, earlier other .job → statuses other ≠ .held) :
    guarding.Spec job.drop statuses (fun _ => Drops .job statuses) error :=
  spec_drop_call (fun _ => rfl) htracks hfirst

/-- A dropped folder is released or kept by a failure. -/
theorem stagedTool_drop {tool : Option StagedTool}
    (htracks : Tracks statuses .stagedTool (tool.elim false (·.active)))
    (hfirst : ∀ other, earlier other .stagedTool → statuses other ≠ .held) :
    guarding.Spec (dropOptional StagedTool.drop tool) statuses
      (fun _ => Drops .stagedTool statuses) error := by
  refine dropOptional_spec htracks ?_
  rintro a rfl
  exact stagedTool_releases.drop trivial htracks hfirst

/-- A dropped mapping of the tool is released or kept by a failure. -/
theorem toolDrive_drop {drive : Option WorkspaceDrive}
    (hvalid : ∀ a, drive = some a → a.resource = .toolDrive)
    (htracks : Tracks statuses .toolDrive (drive.elim false (·.active)))
    (hfirst : ∀ other, earlier other .toolDrive → statuses other ≠ .held) :
    guarding.Spec (dropOptional WorkspaceDrive.drop drive) statuses
      (fun _ => Drops .toolDrive statuses) error := by
  refine dropOptional_spec htracks ?_
  rintro a rfl
  exact (drive_releases .toolDrive).drop (hvalid a rfl) htracks hfirst

end Drops

/-! ## The stages -/

/-- What a stage acquires. Where it fails, the resource of the stage is not held. -/
def Acquires {α : Type} (r : Resource) (acquire : Launch α) (active : α → Bool)
    (valid : α → Prop) : Prop :=
  ∀ statuses, (∀ other : Resource, other.place ≤ r.place → statuses other = .idle) →
    guarding.Spec acquire statuses
      (fun a statuses' =>
        statuses' = Function.update statuses r (if active a then .held else .idle) ∧ valid a)
      (Settles r statuses)

section Stages

variable {statuses : Resource → Status} {r : Resource}

/-- An idle resource is settled. -/
theorem settles_self (hidle : statuses r = .idle) : Settles r statuses statuses := by
  refine ⟨?_, fun _ _ => rfl⟩
  rw [hidle]
  decide

/-- What was held before the drop of a stage that fails. -/
theorem Drops.settles_of_update {statuses' : Resource → Status} {status : Status}
    (h : Drops r (Function.update statuses r status) statuses') : Settles r statuses statuses' := by
  refine ⟨h.settles.1, fun other hother => ?_⟩
  rw [h.settles.2 other hother, Function.update_of_ne hother]

/-- The resources before the one of a stage are not held at its own drop. -/
theorem not_held_of_idle {status : Status}
    (hidle : ∀ other : Resource, other.place ≤ r.place → statuses other = .idle) (other : Resource)
    (hother : earlier other r) : Function.update statuses r status other ≠ .held := by
  have hlt := guarding.lt_of_earlier other r hother
  have hne : other ≠ r := fun heq => absurd hlt (by rw [heq]; exact lt_irrefl _)
  rw [Function.update_of_ne hne, hidle other (Nat.le_of_lt hlt)]
  decide

/-- A resource that was just acquired is tracked. -/
theorem tracks_update (active : Bool) (hactive : active = true) :
    Tracks (Function.update statuses r .held) r active := by
  rw [hactive]
  exact .inl (Function.update_self ..)

/-- Creating the profile acquires it. -/
theorem profile_acquires (windows : Windows) :
    Acquires .profile (AppContainerProfile.create windows) (·.active) fun _ => True := by
  intro statuses hidle
  refine Guarding.spec_bind ((spec_require_acquire rfl rfl (hidle .profile (by decide))).mono ?_ ?_)
  · rintro - _ rfl
    exact Guarding.spec_pure ⟨rfl, trivial⟩
  · rintro _ rfl
    exact settles_self (hidle .profile (by decide))

/-- A call of the copy is quiet. -/
theorem quiet_copyCall : guarding.Quiet copyCall := quiet_require rfl rfl

/-- Copying entries is quiet. -/
theorem quiet_copyEntries (staged : StagedNpm) (entries : List RuntimeEntry) :
    guarding.Quiet (copyEntries staged entries) := by
  induction entries generalizing staged with
  | nil => exact Guarding.quiet_pure
  | cons entry entries ih =>
    unfold copyEntries
    refine Guarding.quiet_bind quiet_copyCall fun _ => ?_
    cases entry with
    | link => exact Guarding.quiet_throw
    | other => exact Guarding.quiet_throw
    | directory => exact Guarding.quiet_bind quiet_copyCall fun _ => ih _
    | file length copied =>
      refine Guarding.quiet_bind Guarding.quiet_refuse fun _ => ?_
      refine Guarding.quiet_bind quiet_copyCall fun _ => ?_
      refine Guarding.quiet_bind Guarding.quiet_refuse fun _ => ?_
      refine Guarding.quiet_bind quiet_copyCall fun _ => ?_
      exact Guarding.quiet_bind Guarding.quiet_refuse fun _ => ih _

/-- Copying directories is quiet. -/
theorem quiet_copyDirectories (windows : Windows) (directoryCount : ℕ) (staged : StagedNpm) :
    guarding.Quiet (copyDirectories windows directoryCount staged) := by
  fun_induction copyDirectories windows directoryCount staged with
  | case1 directoryCount staged hnone => exact Guarding.quiet_pure
  | case2 directoryCount staged hmore hmany => exact Guarding.quiet_throw
  | case3 directoryCount staged hmore hfew ih =>
    refine Guarding.quiet_bind quiet_copyCall fun _ => ?_
    exact Guarding.quiet_bind (quiet_copyEntries _ _) fun staged => ih staged

/-- Copying the npm runtime is quiet. -/
theorem quiet_copyNpmRuntime (windows : Windows) : guarding.Quiet (copyNpmRuntime windows) := by
  refine Guarding.quiet_bind quiet_copyCall fun _ => ?_
  refine Guarding.quiet_bind quiet_copyCall fun _ => ?_
  refine Guarding.quiet_bind (quiet_copyDirectories windows 0 _) fun _ => ?_
  exact Guarding.quiet_bind Guarding.quiet_refuse fun _ => quiet_copyCall

/-- Reading the identity of the profile is quiet. -/
theorem quiet_sidString (profile : AppContainerProfile) : guarding.Quiet profile.sidString :=
  Guarding.quiet_bind (quiet_require rfl rfl) fun _ => Guarding.quiet_pure

/-- Reading the folder of the profile is quiet. -/
theorem quiet_folderPath (windows : Windows) (profile : AppContainerProfile) :
    guarding.Quiet (profile.folderPath windows) := by
  refine Guarding.quiet_bind (quiet_sidString profile) fun _ => ?_
  exact Guarding.quiet_bind (quiet_require rfl rfl) fun _ => Guarding.quiet_pure

/-- Copying the tool acquires its folder. -/
theorem stagedTool_acquires (windows : Windows) (prepared : PreparedWindowsCommandLaunch)
    (profile : AppContainerProfile) :
    Acquires .stagedTool (StagedTool.forCommand windows prepared profile)
      (·.elim false (·.active)) fun _ => True := by
  intro statuses hidle
  have hown := hidle .stagedTool (by decide)
  unfold StagedTool.forCommand
  split
  · refine Guarding.spec_pure ⟨?_, trivial⟩
    show statuses = Function.update statuses .stagedTool .idle
    rw [← hown, Function.update_eq_self]
  · refine Guarding.spec_bind ((quiet_folderPath windows profile).spec ?_ (settles_self hown))
    intro folder
    refine Guarding.spec_bind ((spec_require_acquire rfl rfl hown).mono ?_ ?_)
    · rintro - _ rfl
      have hdrop : guarding.Spec (StagedTool.drop ⟨folder ++ "\\MIOCommandTool", true⟩)
          (Function.update statuses .stagedTool .held) (fun _ => Settles .stagedTool statuses)
          (Settles .stagedTool statuses) :=
        (stagedTool_releases.drop trivial (tracks_update true rfl) (not_held_of_idle hidle)).mono
          (fun _ _ h => h.settles_of_update) fun _ h => h
      refine Guarding.spec_onError ?_
      refine Guarding.spec_bind ((quiet_require rfl rfl).spec (fun _ => ?_) hdrop)
      refine Guarding.spec_bind ((quiet_require rfl rfl).spec (fun _ => ?_) hdrop)
      split
      · exact Guarding.spec_bind ((quiet_copyNpmRuntime windows).spec
          (fun _ => Guarding.spec_pure ⟨rfl, trivial⟩) hdrop)
      · exact Guarding.spec_pure ⟨rfl, trivial⟩
    · rintro _ rfl
      exact settles_self hown

/-- A program of the system is looked up. -/
theorem quiet_systemCommand {command : SystemCommand}
    (huse : ∀ part succeeded, use (.lookup part command, succeeded) = none) :
    guarding.Quiet (systemCommand command) := by
  refine Guarding.quiet_bind (quiet_require (huse _ _) (huse _ _)) fun _ => ?_
  refine Guarding.quiet_bind (quiet_require (huse _ _) (huse _ _)) fun _ => ?_
  refine Guarding.quiet_bind (quiet_require (huse _ _) (huse _ _)) fun _ => ?_
  exact quiet_require (huse _ _) (huse _ _)

/-- A grant counts from its first call on, whether that succeeds or not. -/
theorem spec_systemCommand_grant (hidle : statuses .grant = .idle) :
    guarding.Spec (systemCommand .grant) statuses
      (fun _ => (· = Function.update statuses .grant .held))
      (· = Function.update statuses .grant .held) := by
  refine Guarding.spec_bind (Guarding.spec_step hidle hidle (Guarding.spec_pure ?_)
    (Guarding.spec_throw rfl))
  have hquiet : guarding.Quiet (do
      require .systemToolUnavailable (.lookup .canonicalDirectory .grant)
      require .systemToolUnavailable (.lookup .canonicalExecutable .grant)
      require .systemToolUnavailable (.lookup .inDirectory .grant) : Launch Unit) := by
    refine Guarding.quiet_bind (quiet_require rfl rfl) fun _ => ?_
    exact Guarding.quiet_bind (quiet_require rfl rfl) fun _ => quiet_require rfl rfl
  exact hquiet _

/-- Granting the right acquires it. -/
theorem grant_acquires (path sid : String) (writable : Bool) :
    Acquires .grant (TemporaryAclGrant.grant path sid writable) (·.active) fun _ => True := by
  intro statuses hidle
  have hfirst := @not_held_of_idle statuses .grant .held hidle
  have htracks := @tracks_update statuses .grant true rfl
  have hdrop : guarding.Spec (TemporaryAclGrant.drop ⟨path, sid, true⟩)
      (Function.update statuses .grant .held) (fun _ => Settles .grant statuses)
      (Settles .grant statuses) :=
    (grant_releases.drop trivial htracks hfirst).mono (fun _ _ h => h.settles_of_update)
      fun _ h => h
  -- Until the grant is made, every error drops it.
  refine Guarding.spec_bind (Guarding.spec_onError ?_)
  refine Guarding.spec_bind ((spec_systemCommand_grant (hidle .grant (by decide))).mono ?_ ?_)
  · rintro - _ rfl
    refine Guarding.spec_bind ((quiet_require rfl rfl).spec (fun _ => ?_) hdrop)
    refine (quiet_call rfl rfl).spec (fun granted => ?_) hdrop
    split
    · exact Guarding.spec_pure ⟨rfl, trivial⟩
    · -- A grant that may be there in part is removed, and dropped after that.
      refine Guarding.spec_bind ((grant_releases.tryRelease trivial htracks hfirst).mono ?_
        fun _ h => h)
      rintro ⟨grant, failed⟩ statuses' ⟨hdrops, -, htracks', -⟩
      have hfirst' : ∀ other, earlier other .grant → statuses' other ≠ .held := by
        intro other hother
        have hne : other ≠ .grant := fun heq => absurd hother (by rw [heq]; exact lt_irrefl _)
        rw [hdrops.settles.2 other hne]
        exact hfirst other hother
      refine Guarding.spec_bind ((grant_releases.drop trivial htracks' hfirst').mono ?_
        fun _ h => h)
      rintro - statuses'' hdrops'
      refine Guarding.spec_throw ⟨hdrops'.settles.1, fun other hother => ?_⟩
      rw [hdrops'.settles.2 other hother, hdrops.settles_of_update.2 other hother]
  · rintro _ rfl
    exact hdrop

/-- Mapping a folder acquires the mapping. -/
theorem drive_acquires (r : Resource) (workspace : String) :
    Acquires r (WorkspaceDrive.create r workspace) (·.active) fun drive => drive.resource = r := by
  intro statuses hidle
  have hown := hidle r le_rfl
  have hself : Settles r statuses statuses := settles_self hown
  refine Guarding.spec_bind ((quiet_require rfl rfl).spec (fun _ => ?_) hself)
  generalize "ZYXWVUTSRQP".toList = letters
  induction letters with
  | nil => exact Guarding.spec_throw hself
  | cons letter letters ih =>
    unfold WorkspaceDrive.mapFirst
    refine Guarding.spec_bind ((quiet_call rfl rfl).spec (fun free => ?_) hself)
    split
    · have hlookup : ∀ part succeeded,
        use (.lookup part (.mapDrive r letter), succeeded) = none := by
        intro part succeeded
        cases part <;> rfl
      refine Guarding.spec_bind ((quiet_systemCommand hlookup).spec (fun _ => ?_) hself)
      refine Guarding.spec_bind ((quiet_require rfl rfl).spec (fun _ => ?_) hself)
      exact Guarding.spec_bind (Guarding.spec_step hown trivial
        (Guarding.spec_pure (Guarding.spec_pure ⟨rfl, rfl⟩)) (Guarding.spec_pure ih))
    · exact ih

/-- Creating the job acquires it. -/
theorem job_acquires : Acquires .job JobHandle.createKillOnClose (·.active) fun _ => True := by
  intro statuses hidle
  have hown := hidle .job (by decide)
  refine Guarding.spec_bind ((spec_require_acquire rfl rfl hown).mono ?_ ?_)
  · rintro - _ rfl
    have hdrop : guarding.Spec (JobHandle.drop ⟨true⟩) (Function.update statuses .job .held)
        (fun _ => Settles .job statuses) (Settles .job statuses) :=
      (job_drop (tracks_update true rfl) (not_held_of_idle hidle)).mono
        (fun _ _ h => h.settles_of_update) fun _ h => h
    exact Guarding.spec_bind (Guarding.spec_onError ((quiet_require rfl rfl).spec
      (fun _ => Guarding.spec_pure ⟨rfl, trivial⟩) hdrop))
  · rintro _ rfl
    exact settles_self hown

/-- A drive for a tool that may be missing. -/
theorem toolDrive_acquires (tool : Option StagedTool) :
    Acquires .toolDrive
      (optional (fun tool => WorkspaceDrive.create .toolDrive tool.directory) tool)
      (·.elim false (·.active)) fun drive => ∀ a, drive = some a → a.resource = .toolDrive := by
  intro statuses hidle
  cases tool with
  | none =>
    refine Guarding.spec_pure ⟨?_, fun a h => by cases h⟩
    show statuses = Function.update statuses .toolDrive .idle
    rw [← hidle .toolDrive le_rfl, Function.update_eq_self]
  | some tool =>
    refine Guarding.spec_bind ((drive_acquires .toolDrive _ statuses hidle).mono ?_ fun _ h => h)
    rintro drive _ ⟨rfl, hresource⟩
    refine Guarding.spec_pure ⟨rfl, ?_⟩
    rintro _ ⟨⟩
    exact hresource

end Stages

/-! ## All of it -/

/-- Whether the value of a resource has to release it. -/
def IsolationResources.active (resources : IsolationResources) : Resource → Bool
  | .job => resources.job.active
  | .toolDrive => resources.toolDrive.elim false (·.active)
  | .drive => resources.drive.active
  | .grant => resources.grant.active
  | .stagedTool => resources.stagedTool.elim false (·.active)
  | .profile => resources.profile.active

/-- The values say what has become of their resources. -/
structure Owned (statuses : Resource → Status) (resources : IsolationResources) : Prop where
  tracks : ∀ r, Tracks statuses r (resources.active r)
  isToolDrive : ∀ a, resources.toolDrive = some a → a.resource = .toolDrive
  isDrive : resources.drive.resource = .drive

section Resources

variable {statuses : Resource → Status} (windows : Windows)
    (prepared : PreparedWindowsCommandLaunch)

/-- What an inner stage leaves is what the stage around it goes on from. -/
theorem left_inner {r inner : Resource} (hplace : inner.place + 1 = r.place) {status : Status}
    {statuses' : Resource → Status}
    (h : guarding.Left (Function.update statuses r status) inner.place statuses') :
    (∀ other, guarding.place other < guarding.place r → statuses' other ≠ .held) ∧
      statuses' r = status ∧
      ∀ other, guarding.place r < guarding.place other → statuses' other = statuses other := by
  have hplaces : ∀ other, guarding.place other = other.place := fun _ => rfl
  obtain ⟨hinner, houter⟩ := h
  simp only [hplaces] at hinner houter ⊢
  refine ⟨fun other hlt => hinner other (by omega), ?_, fun other hlt => ?_⟩
  · rw [houter r (by omega), Function.update_self]
  · have hne : other ≠ r := fun heq => absurd hlt (by rw [heq]; exact lt_irrefl _)
    rw [houter other (by omega), Function.update_of_ne hne]

/-- The stage around another one. -/
theorem spec_inner {α : Type} {r : Resource} (inner : Resource) (hplace : inner.place + 1 = r.place)
    {status : Status} {p : Launch α} {done : α → (Resource → Status) → Prop}
    (h : guarding.Spec p (Function.update statuses r status) done
      (guarding.Left (Function.update statuses r status) inner.place)) :
    guarding.Spec p (Function.update statuses r status) done fun statuses' =>
      (∀ other, guarding.place other < guarding.place r → statuses' other ≠ .held) ∧
        statuses' r = status ∧
        ∀ other, guarding.place r < guarding.place other → statuses' other = statuses other :=
  h.mono (fun _ _ h => h) fun _ => left_inner hplace

/-- The resources up to the next place stay idle when this one is acquired. -/
theorem idle_update {r : Resource} (next : Resource) (status : Status)
    (hplace : next.place < r.place)
    (hidle : ∀ other : Resource, other.place ≤ r.place → statuses other = .idle) (other : Resource)
    (hother : other.place ≤ next.place) : Function.update statuses r status other = .idle := by
  have hne : other ≠ r := fun heq => by rw [heq] at hother; omega
  rw [Function.update_of_ne hne]
  exact hidle other (by omega)

/-- Where nothing was acquired nothing is left. -/
theorem left_self {place : ℕ}
    (hidle : ∀ other : Resource, other.place ≤ place → statuses other = .idle) :
    guarding.Left statuses place statuses := by
  refine ⟨fun other hother => ?_, fun _ _ => rfl⟩
  rw [hidle other hother]
  decide

/-- Where the isolation is established, its values own the resources. Else nothing is held. -/
theorem establish_spec :
    guarding.Spec (IsolationResources.establish windows prepared) (fun _ => .idle)
      (fun resources statuses => Owned statuses resources) fun statuses =>
        ∀ r, statuses r ≠ .held := by
  have hall : ∀ statuses, guarding.Left (fun _ => .idle) (Resource.place .profile) statuses →
      ∀ r, statuses r ≠ .held := by
    rintro statuses ⟨hinner, -⟩ r
    exact hinner r (by cases r <;> decide)
  -- Nothing is held at the start, and each resource is taken while it and those after it are idle.
  have hidle : ∀ other : Resource, other.place ≤ Resource.place .profile →
      (fun _ => .idle : Resource → Status) other = .idle := fun _ _ => rfl
  refine (Guarding.spec_stage hidle (profile_acquires windows _ hidle) (fun profile _ => ?_)
    fun profile _ _ htracks hfirst => (profile_drop htracks hfirst).mono
      (fun _ _ h => h.settles) fun _ h => h).mono (fun _ _ h => h) hall
  have hstaged :=
    idle_update .stagedTool (if profile.active then .held else .idle) (by decide) hidle
  refine spec_inner .stagedTool rfl ?_
  -- The identifier of the profile is only read, so there is nothing to give back for it.
  refine Guarding.spec_bind ((quiet_sidString profile).spec (fun sid => ?_) (left_self hstaged))
  refine Guarding.spec_stage hstaged (stagedTool_acquires windows prepared profile _ hstaged)
    (fun tool _ => ?_) fun tool _ _ htracks hfirst => (stagedTool_drop htracks hfirst).mono
      (fun _ _ h => h.settles) fun _ h => h
  have hgrant :=
    idle_update .grant (if tool.elim false (·.active) then .held else .idle) (by decide) hstaged
  refine spec_inner .grant rfl ?_
  refine Guarding.spec_stage hgrant (grant_acquires _ sid _ _ hgrant) (fun grant _ => ?_)
    fun grant _ _ htracks hfirst => (grant_releases.drop trivial htracks hfirst).mono
      (fun _ _ h => h.settles) fun _ h => h
  have hdrive := idle_update .drive (if grant.active then .held else .idle) (by decide) hgrant
  refine spec_inner .drive rfl ?_
  refine Guarding.spec_stage hdrive (drive_acquires .drive _ _ hdrive) (fun drive hisDrive => ?_)
    fun drive _ hvalid htracks hfirst => ((drive_releases .drive).drop hvalid htracks hfirst).mono
      (fun _ _ h => h.settles) fun _ h => h
  have htoolDrive :=
    idle_update .toolDrive (if drive.active then .held else .idle) (by decide) hdrive
  refine spec_inner .toolDrive rfl ?_
  refine Guarding.spec_stage htoolDrive (toolDrive_acquires tool _ htoolDrive)
    (fun toolDrive hisToolDrive => ?_)
    fun toolDrive _ hvalid htracks hfirst => (toolDrive_drop hvalid htracks hfirst).mono
      (fun _ _ h => h.settles) fun _ h => h
  have hjob := idle_update .job (if toolDrive.elim false (·.active) then
    .held else .idle) (by decide) htoolDrive
  refine spec_inner .job rfl ?_
  -- The job is the last, and its own acquisition gives it back if it fails.
  refine Guarding.spec_bind ((job_acquires _ hjob).mono ?_ ?_)
  · rintro job _ ⟨rfl, -⟩
    refine Guarding.spec_pure ⟨fun r => ?_, hisToolDrive, hisDrive⟩
    cases r <;> simp only [Tracks, IsolationResources.active] <;> split <;> simp [*]
  · rintro statuses' ⟨hsettled, hothers⟩
    refine ⟨fun other hother => ?_, fun other hother => ?_⟩
    · cases other with
      | job => exact hsettled
      | _ => exact absurd hother (by decide)
    · exact hothers other fun heq => absurd hother (by rw [heq]; exact lt_irrefl _)

/-- The resources up to a place are closed. What was finished before stays as it was. -/
structure Closing (place : ℕ) (before statuses : Resource → Status)
    (resources : IsolationResources) :
    Prop where
  owned : Owned statuses resources
  closed : ∀ r : Resource, r.place < place → statuses r ≠ .held
  finished : ∀ r, before r = .idle ∨ before r = .released → statuses r = before r

/-- A resource is closed, and the next one is due. -/
theorem Closing.step {r : Resource} {before statuses' : Resource → Status}
    {resources resources' : IsolationResources} (h : Closing r.place before statuses resources)
    (hdrops : Drops r statuses statuses') (htracks : Tracks statuses' r (resources'.active r))
    (hactive : ∀ other, other ≠ r → resources'.active other = resources.active other)
    (hisToolDrive : ∀ a, resources'.toolDrive = some a → a.resource = .toolDrive)
    (hisDrive : resources'.drive.resource = .drive) :
    Closing (r.place + 1) before statuses' resources' where
  owned := by
    refine ⟨fun other => ?_, hisToolDrive, hisDrive⟩
    by_cases hother : other = r
    · rw [hother]
      exact htracks
    · rw [hactive other hother]
      exact (h.owned.tracks other).of_eq (hdrops.settles.2 other hother)
  closed other hlt := by
    by_cases hother : other = r
    · rw [hother]
      exact hdrops.settles.1
    · have hne : other.place ≠ r.place := fun heq => hother (guarding.injective heq)
      rw [hdrops.settles.2 other hother]
      exact h.closed other (by omega)
  finished other hfinished := by
    have hsame := h.finished other hfinished
    by_cases hother : other = r
    · subst hother
      rw [hdrops.finished (by rw [hsame]; exact hfinished), hsame]
    · rw [hdrops.settles.2 other hother, hsame]

/-- What must be released first is not held any more. -/
theorem Closing.first {r : Resource} {before : Resource → Status} {resources : IsolationResources}
    (h : Closing r.place before statuses resources) (other : Resource) (hother : earlier other r) :
    statuses other ≠ .held :=
  h.closed other (guarding.lt_of_earlier other r hother)

/-- The close attempts every release that is due. It succeeds only where nothing is left to release.
-/
theorem close_spec {resources : IsolationResources} (h : Owned statuses resources)
    {error : (Resource → Status) → Prop} :
    guarding.Spec resources.close statuses
      (fun result statuses' => Closing 6 statuses statuses' result.1 ∧
        (result.2 = .ok () → ∀ r, statuses' r = .idle ∨ statuses' r = .released)) error := by
  have h0 : Closing (Resource.place .job) statuses statuses resources :=
    ⟨h, fun _ hlt => absurd hlt (Nat.not_lt_zero _), fun _ _ => rfl⟩
  refine Guarding.spec_bind ((job_releases.tryRelease trivial (h0.owned.tracks .job) h0.first).mono
    ?_ fun _ h => h)
  rintro ⟨job, jobFailed⟩ s1 ⟨hdrops, -, htracks, hjob⟩
  have h1 : Closing (Resource.place .toolDrive) statuses s1 { resources with job } :=
    h0.step hdrops htracks (fun other hother => by
      cases other <;> first | rfl | exact absurd rfl hother)
      h.isToolDrive h.isDrive
  refine Guarding.spec_bind (((drive_releases .toolDrive).tryReleaseOptional h1.owned.isToolDrive
    (h1.owned.tracks .toolDrive) h1.first).mono ?_ fun _ h => h)
  rintro ⟨toolDrive, toolDriveFailed⟩ s2 ⟨hdrops, hisToolDrive, htracks, htoolDrive⟩
  have h2 : Closing (Resource.place .drive) statuses s2 { resources with job, toolDrive } :=
    h1.step hdrops htracks (fun other hother => by
      cases other <;> first | rfl | exact absurd rfl hother)
      hisToolDrive h.isDrive
  refine Guarding.spec_bind (((drive_releases .drive).tryRelease h2.owned.isDrive
    (h2.owned.tracks .drive) h2.first).mono ?_ fun _ h => h)
  rintro ⟨drive, driveFailed⟩ s3 ⟨hdrops, hisDrive, htracks, hdrive⟩
  have h3 : Closing (Resource.place .grant) statuses s3 { resources with job, toolDrive, drive } :=
    h2.step hdrops htracks (fun other hother => by
      cases other <;> first | rfl | exact absurd rfl hother)
      hisToolDrive hisDrive
  refine Guarding.spec_bind ((grant_releases.tryRelease trivial (h3.owned.tracks .grant)
    h3.first).mono ?_ fun _ h => h)
  rintro ⟨grant, grantFailed⟩ s4 ⟨hdrops, -, htracks, hgrant⟩
  have h4 : Closing (Resource.place .stagedTool) statuses s4
      { resources with job, toolDrive, drive, grant } :=
    h3.step hdrops htracks (fun other hother => by
      cases other <;> first | rfl | exact absurd rfl hother)
      hisToolDrive hisDrive
  refine Guarding.spec_bind ((stagedTool_releases.tryReleaseOptional (fun _ _ => trivial)
    (h4.owned.tracks .stagedTool) h4.first).mono ?_ fun _ h => h)
  rintro ⟨stagedTool, toolFailed⟩ s5 ⟨hdrops, -, htracks, htool⟩
  have h5 : Closing (Resource.place .profile) statuses s5
      { resources with job, toolDrive, drive, grant, stagedTool } :=
    h4.step hdrops htracks (fun other hother => by
      cases other <;> first | rfl | exact absurd rfl hother)
      hisToolDrive hisDrive
  refine Guarding.spec_bind ((profile_releases.tryRelease trivial (h5.owned.tracks .profile)
    h5.first).mono ?_ fun _ h => h)
  rintro ⟨profile, profileFailed⟩ s6 ⟨hdrops, -, htracks, hprofile⟩
  have h6 : Closing 6 statuses s6
      { resources with job, toolDrive, drive, grant, stagedTool, profile } :=
    h5.step hdrops htracks (fun other hother => by
      cases other <;> first | rfl | exact absurd rfl hother)
      hisToolDrive hisDrive
  refine Guarding.spec_pure ⟨h6, fun hok r => ?_⟩
  -- A value that is still active has failed to release its resource.
  have hinactive : ∀ r, ({ resources with job, toolDrive, drive, grant, stagedTool, profile } :
      IsolationResources).active r = false := by
    dsimp only at hjob htoolDrive hdrive hgrant htool hprofile
    have hfailed : (jobFailed || toolDriveFailed || driveFailed || grantFailed || toolFailed ||
        profileFailed) = false := by
      by_contra hfailed
      rw [Bool.not_eq_false] at hfailed
      rw [hfailed] at hok
      cases hok
    simp only [Bool.or_eq_false_iff] at hfailed
    obtain ⟨⟨⟨⟨⟨hf1, hf2⟩, hf3⟩, hf4⟩, hf5⟩, hf6⟩ := hfailed
    intro r
    cases r
    · exact hjob.symm.trans hf1
    · exact htoolDrive.symm.trans hf2
    · exact hdrive.symm.trans hf3
    · exact hgrant.symm.trans hf4
    · exact htool.symm.trans hf5
    · exact hprofile.symm.trans hf6
  have htracks := h6.owned.tracks r
  rw [hinactive r] at htracks
  exact htracks

/-- Nothing is held, and the values of some resources still say what has become of them. -/
structure Dropping (resources : IsolationResources) (before : Resource → Status)
    (left : List Resource) (statuses : Resource → Status) : Prop where
  tracks : ∀ r ∈ left, Tracks statuses r (resources.active r)
  closed : ∀ r, statuses r ≠ .held
  finished : ∀ r, before r = .idle ∨ before r = .released → statuses r = before r

/-- A resource is dropped, and the next one is due. -/
theorem Dropping.step {resources : IsolationResources} {r : Resource} {left : List Resource}
    {before statuses' : Resource → Status} (h : Dropping resources before (r :: left) statuses)
    (hleft : r ∉ left) (hdrops : Drops r statuses statuses') :
    Dropping resources before left statuses' where
  tracks other hother := by
    have hne : other ≠ r := fun heq => hleft (heq ▸ hother)
    exact (h.tracks other (List.mem_cons_of_mem _ hother)).of_eq (hdrops.settles.2 other hne)
  closed other := by
    by_cases hother : other = r
    · rw [hother]
      exact hdrops.settles.1
    · rw [hdrops.settles.2 other hother]
      exact h.closed other
  finished other hfinished := by
    have hsame := h.finished other hfinished
    by_cases hother : other = r
    · subst hother
      rw [hdrops.finished (by rw [hsame]; exact hfinished), hsame]
    · rw [hdrops.settles.2 other hother, hsame]

/-- The next resource is tracked by the handle that is there. -/
theorem Dropping.own {resources : IsolationResources} {r : Resource} {left : List Resource}
    {before : Resource → Status} (h : Dropping resources before (r :: left) statuses) :
    Tracks statuses r (resources.active r) :=
  h.tracks r List.mem_cons_self

/-- The drop leaves nothing held, and it does nothing where nothing is left to release. -/
theorem drop_spec {resources : IsolationResources} (h : Owned statuses resources)
    {error : (Resource → Status) → Prop} :
    guarding.Spec resources.drop statuses (fun _ statuses' => (∀ r, statuses' r ≠ .held) ∧
      ∀ r, statuses r = .idle ∨ statuses r = .released → statuses' r = statuses r) error := by
  refine Guarding.spec_bind ((close_spec h).mono ?_ fun _ h => h)
  rintro ⟨resources, _⟩ s0 ⟨hclosing, -⟩
  have h0 : Dropping resources statuses
      [.job, .drive, .toolDrive, .grant, .stagedTool, .profile] s0 :=
    ⟨fun r _ => hclosing.owned.tracks r, fun r => hclosing.closed r (by cases r <;> decide),
      hclosing.finished⟩
  -- The resources are dropped in order, each with those before it closed.
  refine Guarding.spec_bind ((job_drop h0.own fun other _ => h0.closed other).mono ?_ fun _ h => h)
  intro _ s1 hdrops
  have h1 := h0.step (by decide) hdrops
  refine Guarding.spec_bind (((drive_releases .drive).drop hclosing.owned.isDrive h1.own
    fun other _ => h1.closed other).mono ?_ fun _ h => h)
  intro _ s2 hdrops
  have h2 := h1.step (by decide) hdrops
  refine Guarding.spec_bind ((toolDrive_drop hclosing.owned.isToolDrive h2.own
    fun other _ => h2.closed other).mono ?_ fun _ h => h)
  intro _ s3 hdrops
  have h3 := h2.step (by decide) hdrops
  refine Guarding.spec_bind ((grant_releases.drop trivial h3.own
    fun other _ => h3.closed other).mono ?_ fun _ h => h)
  intro _ s4 hdrops
  have h4 := h3.step (by decide) hdrops
  refine Guarding.spec_bind ((stagedTool_drop h4.own fun other _ => h4.closed other).mono ?_
    fun _ h => h)
  intro _ s5 hdrops
  have h5 := h4.step (by decide) hdrops
  refine (profile_drop h5.own fun other _ => h5.closed other).mono ?_ fun _ h => h
  intro _ s6 hdrops
  have h6 := h5.step (by decide) hdrops
  exact ⟨h6.closed, h6.finished⟩

/-- Ending the processes is quiet. -/
theorem quiet_terminate (job : JobHandle) (exitCode : ℕ) : guarding.Quiet
    (job.terminate exitCode) :=
  Guarding.quiet_ite (Guarding.quiet_bind (quiet_call rfl rfl) fun _ => Guarding.quiet_pure)
    Guarding.quiet_pure

/-- Launching the process is quiet. -/
theorem quiet_launch (resources : IsolationResources) :
    guarding.Quiet (resources.launch windows prepared) := by
  have hcall : ∀ {α : Type} (e : WindowsCommandIsolationError) (c : LaunchCall)
      (next : Unit → Launch α), guarding.Quiet (next ()) →
      guarding.Quiet (require e (.launch c) >>= next) :=
    fun e c next h => Guarding.quiet_bind (quiet_require rfl rfl) fun _ => h
  have hfolder : guarding.Quiet (resources.toolDrive.elim (resources.profile.folderPath windows)
      fun drive => pure drive.root) := by
    cases resources.toolDrive with
    | none => exact quiet_folderPath windows _
    | some drive => exact Guarding.quiet_pure
  have hrest : guarding.Quiet (do
      require .processLaunchFailed (.launch .securityCapabilities)
      require .processLaunchFailed (.launch .inheritedHandles)
      let _ ← resources.toolDrive.elim (resources.profile.folderPath windows) fun drive =>
        pure drive.root
      require .systemToolUnavailable (.launch .environment)
      require .processLaunchFailed (.launch .createProcess) : Launch Unit) := by
    refine hcall _ _ _ (hcall _ _ _ (Guarding.quiet_bind hfolder fun _ => ?_))
    exact hcall _ _ _ (quiet_require rfl rfl)
  unfold IsolationResources.launch
  refine hcall _ _ _ (hcall _ _ _ (hcall _ _ _ (hcall _ _ _ (hcall _ _ _ (hcall _ _ _ ?_)))))
  refine hcall _ _ _ (hcall _ _ _ ?_)
  split
  · exact hcall _ _ _ hrest
  · exact hrest

/-- Waiting for the process is quiet. -/
theorem quiet_waitForProcess (resources : IsolationResources) :
    guarding.Quiet (resources.waitForProcess windows) := by
  unfold IsolationResources.waitForProcess
  cases windows.wait with
  | signalled => exact Guarding.quiet_pure
  | timedOut =>
    refine Guarding.quiet_bind (quiet_terminate _ _) fun _ => ?_
    exact Guarding.quiet_bind Guarding.quiet_refuse fun _ => Guarding.quiet_pure
  | failed => exact Guarding.quiet_bind (quiet_terminate _ _) fun _ => Guarding.quiet_throw

/-- The process and its output have nothing to do with the resources. -/
theorem quiet_execute (resources : IsolationResources) :
    guarding.Quiet (resources.execute windows prepared) := by
  -- A job that is stopped before an error holds what it held.
  have hoften : ∀ {α : Type} (exitCode : ℕ) (next : Unit → Launch α), guarding.Quiet (next ()) →
      guarding.Quiet (resources.job.terminate exitCode >>= next) :=
    fun exitCode next h => Guarding.quiet_bind (quiet_terminate _ _) fun _ => h
  have hrest : guarding.Quiet (do
      let hostTimedOut ← resources.waitForProcess windows
      require .processExitUnavailable .exitCode
      if !hostTimedOut then resources.job.terminate 125
      let stdout ← Prog.ofExcept (windows.output false)
      let stderr ← Prog.ofExcept (windows.output true)
      let completion :=
        if hostTimedOut then .hostTimedOut
        else if windows.outputExceeded then .outputLimitExceeded
        else .completed
      pure { completion, exitCode := windows.exitCode, stdout, stderr } :
        Launch WindowsCommandLaunchOutcome) := by
    refine Guarding.quiet_bind (quiet_waitForProcess windows resources) fun hostTimedOut => ?_
    refine Guarding.quiet_bind (quiet_require rfl rfl) fun _ => ?_
    have houtput : guarding.Quiet (do
        let stdout ← Prog.ofExcept (windows.output false)
        let stderr ← Prog.ofExcept (windows.output true)
        let completion :=
          if hostTimedOut then .hostTimedOut
          else if windows.outputExceeded then .outputLimitExceeded
          else .completed
        pure { completion, exitCode := windows.exitCode, stdout, stderr } :
          Launch WindowsCommandLaunchOutcome) := by
      refine Guarding.quiet_bind Guarding.quiet_ofExcept fun _ => ?_
      exact Guarding.quiet_bind Guarding.quiet_ofExcept fun _ => Guarding.quiet_pure
    exact Guarding.quiet_ite (hoften _ _ houtput) houtput
  unfold IsolationResources.execute
  refine Guarding.quiet_bind (quiet_launch windows prepared resources) fun _ => ?_
  refine Guarding.quiet_bind (quiet_call rfl rfl) fun _ => ?_
  refine Guarding.quiet_ite (Guarding.quiet_bind (quiet_require rfl rfl) fun _ =>
    Guarding.quiet_throw) ?_
  refine Guarding.quiet_bind (quiet_call rfl rfl) fun _ => ?_
  refine Guarding.quiet_ite (hoften _ _ Guarding.quiet_throw) ?_
  refine Guarding.quiet_bind (quiet_call rfl rfl) fun _ => ?_
  exact Guarding.quiet_ite (hoften _ _ Guarding.quiet_throw) hrest

/-- The whole of a launch, by what it leaves. -/
theorem executeWindowsCommandLaunch_spec :
    guarding.Spec (executeWindowsCommandLaunch windows prepared) (fun _ => .idle)
      (fun _ statuses => ∀ r, statuses r = .idle ∨ statuses r = .released)
      fun statuses => ∀ r, statuses r ≠ .held := by
  refine Guarding.spec_bind ((establish_spec windows prepared).mono ?_ fun _ h => h)
  intro resources s0 howned
  have hexecute : guarding.Spec (resources.execute windows prepared).attempt s0
      (fun _ => (· = s0)) fun _ => False :=
    Guarding.spec_attempt ((quiet_execute windows prepared resources).spec (fun _ => rfl)
      fun _ => rfl)
  refine Guarding.spec_bind (hexecute.mono ?_ fun _ h => h.elim)
  rintro outcome _ rfl
  refine Guarding.spec_bind ((close_spec howned).mono ?_ fun _ h => h)
  rintro ⟨resources', cleanup⟩ s1 ⟨hclosing, hok⟩
  refine Guarding.spec_bind ((drop_spec hclosing.owned).mono ?_ fun _ h => h)
  rintro - s2 ⟨hnone, hfinished⟩
  cases cleanup with
  | error e => exact Guarding.spec_throw hnone
  | ok _ =>
    have hall : ∀ r, s2 r = .idle ∨ s2 r = .released := by
      intro r
      rw [hfinished r (hok rfl r)]
      exact hok rfl r
    cases outcome with
    | error e => exact Guarding.spec_throw hnone
    | ok value => exact Guarding.spec_pure hall

end Resources

/-- Under every pattern of failures, what was acquired has its release attempted, in the order of
the clean-up, and not again once it has succeeded. A launch that returns a value has released it
all. -/
theorem execute_cleanUp (windows : Windows) (prepared : PreparedWindowsCommandLaunch)
    (faults : List Fault) :
    let result := (executeWindowsCommandLaunch windows prepared).run faults []
    let uses := result.2.filterMap use
    result.1 ≠ .cut → CleanUp earlier uses ∧
      ∀ value, result.1 = .done value → ∀ r, .acquire r ∈ uses → .release r true ∈ uses := by
  intro result uses hreturned
  have hends := Prog.run_wp _ faults [] (executeWindowsCommandLaunch_spec windows prepared [] .nil)
  change Prog.Ends _ _ _ (result.1, result.2) at hends
  cases houtcome : result.1 with
  | done value =>
    rw [houtcome] at hends
    obtain ⟨statuses, hat, hdone⟩ := hends
    refine ⟨hat.cleanUp fun r => ?_, fun _ _ r hacquire => hat.released (hdone r) hacquire⟩
    rcases hdone r with hidle | hreleased
    · rw [hidle]
      decide
    · rw [hreleased]
      decide
  | error e =>
    rw [houtcome] at hends
    obtain ⟨statuses, hat, hnone⟩ := hends
    exact ⟨hat.cleanUp hnone, fun _ hvalue => by cases hvalue⟩
  | cut => exact absurd houtcome hreturned

namespace Sample

/-- A system on which the process ends by itself. -/
def windows : Windows where
  sid := "S-1-15-2-1"
  profileFolder := "C:\\Profile"
  runtimeEntries := fun _ => []
  wait := .signalled
  terminated := true
  exitCode := 0
  output := fun _ => .ok []
  outputExceeded := false

/-- A Node command in a workspace that it may write. -/
def prepared : PreparedWindowsCommandLaunch where
  workspaceRoot := "C:\\Workspace"
  toolExecutable := "C:\\Tools\\node.exe"
  tool := .node
  workspaceWritable := true
  npmRuntime := none
  networkClientEnabled := false

/-- No letter is free for the tool drive, and the removals of the other drive and of the grant fail.
-/
def faults : List Fault :=
  List.replicate 22 .proceed ++ List.replicate 12 (.fail 0) ++ [.proceed, .fail 0]

/-- Four resources are acquired before the failure. -/
theorem execute_cleanUp_faults :
    let uses := ((executeWindowsCommandLaunch windows prepared).run faults []).2.filterMap use
    (.acquire .profile ∈ uses ∧ .acquire .stagedTool ∈ uses ∧ .acquire .grant ∈ uses ∧
      .acquire .drive ∈ uses) ∧ CleanUp earlier uses :=
  ⟨by decide, (execute_cleanUp windows prepared faults (by decide)).1⟩

end Sample

end Mio.Launcher
