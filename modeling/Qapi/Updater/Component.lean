import Qapi.Core.Result

/-!
# Updating a component

`cmd/qapi-component-updater`: a component is a directory of releases with two links, the
current release and the one to roll back to, and a service that runs what the current link
points to when it is restarted. An update fetches the release, points the previous link to
the current release and activates the new one; when that fails, the link is switched back
and the service is restarted.

The effects are chosen by the environment: each may fail, and the context may have expired
at any of them. A release is named by its directory.

The previous link is written before it is known whether the new release runs, and nothing
writes it back. After an update that failed there is therefore nothing to roll back to.
-/

namespace Qapi.Updater

open Qapi.Core

/-! ## The host and its effects -/

inductive Component
  | cliproxyapi
  | sub2api
deriving DecidableEq, Repr

/-- The links of a component, and the release that the current link pointed to when the
service was last restarted with success. -/
structure Host where
  current : String
  previous : Option String
  restarted : String
deriving DecidableEq, Repr

inductive Switch
  | preserve
  | activate
  | fallback
  | swap
deriving DecidableEq, Repr

inductive Attempt
  | fresh
  | fallback
deriving DecidableEq, Repr

inductive Stage
  | backup
  | download
  | restart (a : Attempt)
  | probe (a : Attempt) (attempt : Nat)
  | pause (a : Attempt) (attempt : Nat)
deriving DecidableEq, Repr

/-- What `os.Stat` says about the binary of the release. -/
inductive Binary
  | present
  | missing
  | unreadable (e : Err)
deriving DecidableEq, Repr

structure Env where
  evalCurrent : Option Err
  evalPrevious : Option Err
  stat : Binary
  backup : Option Err
  download : Option Err
  symlink : Switch → Option Err
  rename : Switch → Option Err
  restart : Attempt → Option Err
  healthy : Attempt → Nat → Bool
  expired : Stage → Bool

def contextExpired : Err := .msg "context deadline exceeded"

/-- An effect under the context: it fails when the context has expired. -/
def Env.underContext (env : Env) (stage : Stage) (outcome : Option Err) : Except Err Unit :=
  if env.expired stage then .error contextExpired
  else
    match outcome with
    | some e => .error e
    | none => .ok ()

/-- `runCommand(ctx, "systemctl", "restart", …)`. -/
def restartService (env : Env) (a : Attempt) : Except Err Unit :=
  env.underContext (.restart a) (env.restart a)

/-- `atomicSymlink`: the link changes with the rename, or not at all. -/
def atomicSymlink (env : Env) (s : Switch) : Except Err Unit :=
  match env.symlink s with
  | some e => .error e
  | none =>
    match env.rename s with
    | some e => .error e
    | none => .ok ()

/-- The loop of `waitForHealth` from an attempt on. -/
def waitFrom (env : Env) (a : Attempt) (attempt : Nat) : Nat → Except Err Unit
  | 0 => .error (.msg "service health check timed out")
  | left + 1 =>
    if env.healthy a attempt && !env.expired (.probe a attempt) then .ok ()
    else if env.expired (.pause a attempt) then .error contextExpired
    else waitFrom env a (attempt + 1) left

def waitForHealth (env : Env) (a : Attempt) : Except Err Unit := waitFrom env a 0 30

/-! ## The commands -/

/-- `activateRelease`. -/
def activateRelease (env : Env) (target fallback : String) (h : Host) : Except Err Unit × Host :=
  match atomicSymlink env .activate with
  | .error e => (.error e, h)
  | .ok () =>
    let h := { h with current := target }
    let restarted := restartService env .fresh
    let h := if isOk restarted then { h with restarted := h.current } else h
    if isOk restarted ∧ isOk (waitForHealth env .fresh) then (.ok (), h)
    else
      let h := if isOk (atomicSymlink env .fallback) then { h with current := fallback } else h
      let h := if isOk (restartService env .fallback) then { h with restarted := h.current } else h
      (.error (.msg "new release failed health checks and the previous release was restored"), h)

/-- The part of `updateComponent` before the links are touched. -/
def prepare (env : Env) (c : Component) : Except Err Unit := do
  if c = .sub2api then env.underContext .backup env.backup
  match env.stat with
  | .present => pure ()
  | .missing => env.underContext .download env.download
  | .unreadable e => throw e

/-- `updateComponent`; `version` is the directory of the new release. -/
def updateComponent (env : Env) (c : Component) (version : String) (h : Host) :
    Except Err Unit × Host :=
  match env.evalCurrent with
  | some e => (.error (.msg ("current release is unavailable: " ++ e.text)), h)
  | none =>
    if h.current = version then (.ok (), h)
    else
      match prepare env c with
      | .error e => (.error e, h)
      | .ok () =>
        match atomicSymlink env .preserve with
        | .error e => (.error (.msg ("failed to preserve previous release: " ++ e.text)), h)
        | .ok () => activateRelease env version h.current { h with previous := some h.current }

/-- `rollbackComponent`. -/
def rollbackComponent (env : Env) (c : Component) (h : Host) : Except Err Unit × Host :=
  match env.evalCurrent with
  | some e => (.error e, h)
  | none =>
    match env.evalPrevious, h.previous with
    | none, some previous =>
      if h.current = previous then
        (.error (.msg "rollback release matches the current release"), h)
      else
        match (if c = .sub2api then env.underContext .backup env.backup else .ok ()) with
        | .error e => (.error e, h)
        | .ok () =>
          match activateRelease env previous h.current h with
          | (.error e, h') => (.error e, h')
          | (.ok (), h') =>
            match atomicSymlink env .swap with
            | .error e =>
              (.error (.msg ("rollback succeeded but previous link could not be updated: " ++
                e.text)), h')
            | .ok () => (.ok (), { h' with previous := some h.current })
    | _, _ => (.error (.msg "no rollback release is available"), h)

/-! ## What a failed update leaves behind -/

/-- The links are as before, and the service was last restarted with the current release. -/
structure Restored (h h' : Host) : Prop where
  current : h'.current = h.current
  restarted : h'.restarted = h.current
  previous : h'.previous = h.previous

/-- The update gets as far as writing the previous link. -/
def Preserves (env : Env) (c : Component) (version : String) (h : Host) : Prop :=
  env.evalCurrent = none ∧ h.current ≠ version ∧ isOk (prepare env c) = true ∧
    isOk (atomicSymlink env .preserve) = true

def Activates (env : Env) : Prop :=
  isOk (atomicSymlink env .activate) = true ∧ isOk (restartService env .fresh) = true ∧
    isOk (waitForHealth env .fresh) = true

/-- A link that was switched is switched back, and no restart with the new release is the
last one that succeeded. -/
def FallsBack (env : Env) : Prop :=
  isOk (atomicSymlink env .activate) = true →
    isOk (atomicSymlink env .fallback) = true ∧
      (isOk (restartService env .fresh) = true → isOk (restartService env .fallback) = true)

section

variable {env : Env} {c : Component} {version : String} {h : Host}

theorem activateRelease_of_activates (target fallback : String) (hActivates : Activates env) :
    isOk (activateRelease env target fallback h).1 = true := by
  obtain ⟨hLink, hRestart, hHealth⟩ := hActivates
  unfold activateRelease
  cases hLinked : atomicSymlink env .activate with
  | error e => simp [hLinked] at hLink
  | ok u => simp [hRestart, hHealth]

/-- A release that is not activated leaves the links as the fallback leaves them. -/
theorem activateRelease_of_not (target fallback : String) (h : Host) (hFails : ¬ Activates env) :
    isOk (activateRelease env target fallback h).1 = false ∧
      (activateRelease env target fallback h).2.previous = h.previous ∧
      (activateRelease env target fallback h).2.current =
        (if isOk (atomicSymlink env .activate) then
          if isOk (atomicSymlink env .fallback) then fallback else target
        else h.current) ∧
      (activateRelease env target fallback h).2.restarted =
        if isOk (atomicSymlink env .activate) then
          if isOk (restartService env .fallback) then
            if isOk (atomicSymlink env .fallback) then fallback else target
          else if isOk (restartService env .fresh) then target else h.restarted
        else h.restarted := by
  unfold activateRelease
  cases hLinked : atomicSymlink env .activate with
  | error e => simp
  | ok u =>
    have hNot : ¬ (isOk (restartService env .fresh) = true ∧ isOk (waitForHealth env .fresh) = true) := by
      rintro ⟨hRestart, hHealth⟩
      exact hFails ⟨by rw [hLinked]; rfl, hRestart, hHealth⟩
    simp only [hNot, if_false, isOk_error, isOk_ok, if_true, true_and]
    refine ⟨?_, ?_, ?_⟩
    · split <;> split <;> split <;> rfl
    · split <;> split <;> split <;> rfl
    · cases isOk (restartService env .fallback) <;> cases isOk (atomicSymlink env .fallback) <;>
        cases isOk (restartService env .fresh) <;> rfl

/-- An update that does not get to the previous link changes nothing. -/
theorem updateComponent_of_not_preserves (hStops : ¬ Preserves env c version h) :
    (updateComponent env c version h).2 = h := by
  unfold updateComponent
  split
  · rfl
  next hEval =>
    split
    · rfl
    next hVersion =>
      split
      · rfl
      next hPrepared =>
        split
        · rfl
        next hPreserved =>
          exact absurd ⟨hEval, hVersion, by rw [hPrepared]; rfl, by rw [hPreserved]; rfl⟩ hStops

theorem updateComponent_of_preserves (hPreserves : Preserves env c version h) :
    updateComponent env c version h =
      activateRelease env version h.current { h with previous := some h.current } := by
  obtain ⟨hEval, hVersion, hPrepared, hPreserved⟩ := hPreserves
  unfold updateComponent
  rw [hEval]
  simp only [hVersion, if_false]
  cases hPrepare : prepare env c with
  | error e => simp [hPrepare] at hPrepared
  | ok u =>
    cases hLink : atomicSymlink env .preserve with
    | error e => simp [hLink] at hPreserved
    | ok u => rfl

/-- A failed activation restores the state exactly when the previous link was already at the
current release and the fallback went through. -/
theorem restored_iff (hRunning : h.restarted = h.current) (hPreserves : Preserves env c version h)
    (hFails : ¬ Activates env) :
    Restored h (updateComponent env c version h).2 ↔
      h.previous = some h.current ∧ FallsBack env := by
  have hVersion : h.current ≠ version := hPreserves.2.1
  obtain ⟨_, hPrevious, hCurrent, hRestarted⟩ :=
    activateRelease_of_not version h.current { h with previous := some h.current } hFails
  rw [updateComponent_of_preserves hPreserves]
  have hIff : ∀ h' : Host, Restored h h' ↔
      h'.previous = h.previous ∧ h'.current = h.current ∧ h'.restarted = h.current :=
    fun h' => ⟨fun r => ⟨r.previous, r.current, r.restarted⟩, fun r => ⟨r.2.1, r.2.2, r.1⟩⟩
  rw [hIff, hPrevious, hCurrent, hRestarted, FallsBack]
  rw [hRunning, eq_comm (a := some h.current)]
  refine and_congr_right fun _ => ?_
  cases isOk (atomicSymlink env .activate) <;> cases isOk (atomicSymlink env .fallback) <;>
    cases isOk (restartService env .fallback) <;> cases isOk (restartService env .fresh) <;>
      simp [hVersion.symm]

end

/-- An update that returns an error restores the previous state exactly when it failed
before it wrote the previous link, or that link pointed to the current release already and
the fallback went through. -/
theorem failed_update_restores_iff (env : Env) (c : Component) (version : String) (h : Host)
    (hRunning : h.restarted = h.current) :
    (isOk (updateComponent env c version h).1 = false →
        Restored h (updateComponent env c version h).2) ↔
      (Preserves env c version h → ¬ Activates env →
        h.previous = some h.current ∧ FallsBack env) := by
  by_cases hPreserves : Preserves env c version h
  · by_cases hActivates : Activates env
    · have hOk : isOk (updateComponent env c version h).1 = true := by
        rw [updateComponent_of_preserves hPreserves]
        exact activateRelease_of_activates _ _ hActivates
      simp [hOk, hActivates]
    · have hError : isOk (updateComponent env c version h).1 = false := by
        rw [updateComponent_of_preserves hPreserves]
        exact (activateRelease_of_not _ _ _ hActivates).1
      simp [hError, hPreserves, hActivates, restored_iff hRunning hPreserves hActivates]
  · have hSame : Restored h (updateComponent env c version h).2 := by
      rw [updateComponent_of_not_preserves hPreserves]
      exact ⟨rfl, hRunning, rfl⟩
    simp [hSame, hPreserves]

/-! ## A release that does not become healthy -/

def unhealthyRelease : Env where
  evalCurrent := none
  evalPrevious := none
  stat := .present
  backup := none
  download := none
  symlink _ := none
  rename _ := none
  restart _ := none
  healthy a _ := a = .fallback
  expired _ := false

def sampleHost : Host := ⟨"v2", some "v1", "v2"⟩

/-- The update fails, the old release runs again, and the release to roll back to is lost. -/
theorem failed_update_loses_previous :
    isOk (updateComponent unhealthyRelease .cliproxyapi "v3" sampleHost).1 = false ∧
      (updateComponent unhealthyRelease .cliproxyapi "v3" sampleHost).2 =
        ⟨"v2", some "v2", "v2"⟩ ∧
      ¬ Restored sampleHost (updateComponent unhealthyRelease .cliproxyapi "v3" sampleHost).2 ∧
      (rollbackComponent unhealthyRelease .cliproxyapi
          (updateComponent unhealthyRelease .cliproxyapi "v3" sampleHost).2).1 =
        .error (.msg "rollback release matches the current release") := by
  have hHost : (updateComponent unhealthyRelease .cliproxyapi "v3" sampleHost).2 =
      ⟨"v2", some "v2", "v2"⟩ := by rfl
  refine ⟨by rfl, hHost, ?_, ?_⟩
  · intro hRestored
    have hPrevious := hRestored.previous
    rw [hHost] at hPrevious
    exact absurd hPrevious (by decide)
  · rw [hHost]
    rfl

/-- The next update fails in the same way and falls back; the previous link stays where the
first one has put it. -/
theorem second_failed_update_restores :
    isOk (updateComponent unhealthyRelease .cliproxyapi "v3" ⟨"v2", some "v2", "v2"⟩).1 = false ∧
      Restored ⟨"v2", some "v2", "v2"⟩
        (updateComponent unhealthyRelease .cliproxyapi "v3" ⟨"v2", some "v2", "v2"⟩).2 := by
  have hError : isOk (updateComponent unhealthyRelease .cliproxyapi "v3"
      ⟨"v2", some "v2", "v2"⟩).1 = false := by rfl
  have hFallsBack : FallsBack unhealthyRelease := fun _ => ⟨rfl, fun _ => rfl⟩
  exact ⟨hError, (failed_update_restores_iff unhealthyRelease .cliproxyapi "v3"
    ⟨"v2", some "v2", "v2"⟩ rfl).mpr (fun _ _ => ⟨rfl, hFallsBack⟩) hError⟩

end Qapi.Updater
