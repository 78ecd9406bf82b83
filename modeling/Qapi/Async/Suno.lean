import Mathlib.Data.List.Sort
import Qapi.Async.Billing
import Qapi.Core.Machine

/-!
# Suno tasks

`updateSunoTasks` and `sweepTimedOutTasks` over one task row. A Suno pass applies the
items of the response to its copy of the row one after another; an item that reports a
failure is refunded at once, and then the copy is saved over whatever the row holds by
now. Nothing in between asks whether the task has been refunded, so the refund happens
once only in runs that keep writers apart; `Safe` says how far apart.
-/

namespace Qapi.Async.Suno

open Qapi.Core Subscription Billing

/-- `SunoDataResponse`, an item of the response. -/
structure SunoDataResponse where
  status : String
  failReason : String
  submitTime : Int
  startTime : Int
  finishTime : Int
  data : String
deriving DecidableEq, Repr

section

-- what `common.Marshal` makes of raw JSON
variable (marshal : String → String)

/-- The bytes of the JSON text in order. -/
def sortedData (data : String) : List UInt8 :=
  (marshal data).toUTF8.data.toList.insertionSort (· ≤ ·)

def taskNeedsUpdate (oldTask : Task) (newTask : SunoDataResponse) : Bool :=
  oldTask.submitTime ≠ newTask.submitTime || oldTask.startTime ≠ newTask.startTime ||
    oldTask.finishTime ≠ newTask.finishTime ||
    oldTask.status ≠ TaskStatus.ofText newTask.status || oldTask.failReason ≠ newTask.failReason ||
    (oldTask.status.isTerminal && oldTask.progress ≠ "100%") ||
    sortedData marshal oldTask.data ≠ sortedData marshal newTask.data

end

def takeFields (t : Task) (item : SunoDataResponse) : Task :=
  { t with
    status := if item.status ≠ "" then TaskStatus.ofText item.status else t.status
    failReason := if item.failReason ≠ "" then item.failReason else t.failReason
    submitTime := if item.submitTime ≠ 0 then item.submitTime else t.submitTime
    startTime := if item.startTime ≠ 0 then item.startTime else t.startTime
    finishTime := if item.finishTime ≠ 0 then item.finishTime else t.finishTime }

/-- Whether the item makes the pass refund the task. -/
def reportsFailure (t : Task) (item : SunoDataResponse) : Bool :=
  item.failReason ≠ "" || (takeFields t item).status = .failure

def applyItem (t : Task) (item : SunoDataResponse) : Task :=
  let t' := takeFields t item
  { t' with
    progress :=
      if reportsFailure t item || TaskStatus.ofText item.status = .success then "100%"
      else t'.progress
    data := item.data }

def refundItem (o : Outcome) (t : Task) (item : SunoDataResponse) (w : World) : Bool × World :=
  if reportsFailure t item then refundTaskQuota o { takeFields t item with progress := "100%" } w
  else (false, w)

/-! ## Passes over the row -/

/-- Where a pass stands: a Suno pass holds its copy between two items and has a copy to save
after one, a sweep holds a copy or has moved the row to failure and is about to refund. -/
inductive Pass
  | idle
  | holding (task : Task)
  | saving (task : Task)
  | sweeping (task : Task)
  | refunding (task : Task)

structure State where
  row : Task
  passes : Nat → Pass
  world : World
  refunds : Nat

def State.setPass (s : State) (p : Nat) (x : Pass) : State :=
  { s with passes := Function.update s.passes p x }

inductive Action
  | read (p : Nat)
  | readTimedOut (p : Nat) (cutoffUnix : Int)
  | channelMissing (p : Nat) (failReason : String) (o : Write)
  | item (p : Nat) (item : SunoDataResponse) (o : Outcome)
  | save (p : Nat) (o : Write)
  | finish (p : Nat)
  | sweep (p : Nat) (now : Int) (o : Write)
  | refund (p : Nat) (o : Outcome)

structure Config where
  marshal : String → String
  taskTimeoutMinutes : Int

def countRefund (refunds : Nat) (tookEffect : Bool) : Nat := if tookEffect then refunds + 1 else refunds

def step (cfg : Config) (s : State) : Action → State
  | .read p =>
    match s.passes p with
    | .idle => if s.row.unfinished then s.setPass p (.holding s.row) else s
    | _ => s
  | .readTimedOut p cutoffUnix =>
    match s.passes p with
    | .idle =>
      if 0 < cfg.taskTimeoutMinutes ∧ s.row.timedOut cutoffUnix then
        s.setPass p (.sweeping s.row)
      else s
    | _ => s
  | .channelMissing p failReason o =>
    match s.passes p with
    | .holding _ => { s.setPass p .idle with row := bulkFail o failReason s.row }
    | _ => s
  | .item p item o =>
    match s.passes p with
    | .holding t =>
      if taskNeedsUpdate cfg.marshal t item then
        let (tookEffect, world) := refundItem o t item s.world
        { s.setPass p (.saving (applyItem t item)) with
          world := world
          refunds := countRefund s.refunds tookEffect }
      else s
    | _ => s
  | .save p o =>
    match s.passes p with
    -- an error of the save is logged, and the loop goes on with the copy
    | .saving t => { s.setPass p (.holding t) with row := update o s.row t }
    | _ => s
  | .finish p =>
    match s.passes p with
    | .holding _ => s.setPass p .idle
    | _ => s
  | .sweep p now o =>
    match s.passes p with
    | .sweeping t =>
      let task := timeOut cfg.taskTimeoutMinutes now t
      match updateWithStatus o s.row task t.status with
      | (row, .ok true) =>
        { s.setPass p (if sweepRefunds t then .refunding task else .idle) with row := row }
      | (row, _) => { s.setPass p .idle with row := row }
    | _ => s
  | .refund p o =>
    match s.passes p with
    | .refunding t =>
      let (tookEffect, world) := refundTaskQuota o t s.world
      { s.setPass p .idle with world := world, refunds := countRefund s.refunds tookEffect }
    | _ => s

/-! ## Keeping writers apart -/

/-- The task shows a failure: it is `FAILURE` or has a reason for failing. -/
def showsFailure (t : Task) : Bool := t.status = .failure || t.failReason ≠ ""

def NoUnsaved (passes : Nat → Pass) : Prop := ∀ q t, passes q ≠ .saving t

def NoUnsavedFailure (passes : Nat → Pass) : Prop :=
  ∀ q t, passes q = .saving t → showsFailure t = false

/-- The condition on an action: items are applied to a row that shows no failure, the row is
written by others only while no failure waits to be saved, a failure is reported or swept only
while nothing at all waits to be saved, and the save of a failure takes effect. -/
def Safe (cfg : Config) (s : State) : Action → Prop
  | .channelMissing p _ _ => ∀ t, s.passes p = .holding t → NoUnsavedFailure s.passes
  | .item p item _ => ∀ t, s.passes p = .holding t → taskNeedsUpdate cfg.marshal t item = true →
      showsFailure s.row = false ∧ NoUnsavedFailure s.passes ∧
        (reportsFailure t item = true → NoUnsaved s.passes)
  | .save p o => ∀ t, s.passes p = .saving t → showsFailure t = true → o.tookEffect = true
  | .sweep p _ _ => ∀ t, s.passes p = .sweeping t → s.row.status = t.status →
      NoUnsavedFailure s.passes ∧
        (sweepRefunds t = true → showsFailure s.row = false ∧ NoUnsaved s.passes)
  | _ => True

/-! ## What the actions keep -/

/-- Either nothing has been refunded, or once: then the row shows the failure and no copy waits
to be saved, or the only copy that waits shows it. -/
inductive Refunded (s : State) : Prop
  | never (h : s.refunds = 0)
  | saved (h : s.refunds = 1) (hRow : showsFailure s.row = true) (hNone : NoUnsaved s.passes)
  | unsaved (h : s.refunds = 1) (hRow : showsFailure s.row = false) (p : Nat) (t : Task)
      (hPass : s.passes p = .saving t) (hTask : showsFailure t = true)
      (hOnly : ∀ q u, s.passes q = .saving u → q = p)

structure Inv (s : State) : Prop where
  sweeping : ∀ p t, s.passes p = .sweeping t → t.status.isTerminal = false
  owed : ∀ p t, s.passes p = .refunding t →
    s.refunds = 0 ∧ s.row.status = .failure ∧ NoUnsaved s.passes
  unique : ∀ p q t u, s.passes p = .refunding t → s.passes q = .refunding u → p = q
  refunded : Refunded s

theorem showsFailure_of_status {t : Task} (h : t.status = .failure) : showsFailure t = true := by
  simp [showsFailure, h]

theorem applyItem_showsFailure {t : Task} {item : SunoDataResponse}
    (h : reportsFailure t item = true) : showsFailure (applyItem t item) = true := by
  simp only [reportsFailure, Bool.or_eq_true, decide_eq_true_eq] at h
  rcases h with hReason | hStatus
  · have hCopy : (applyItem t item).failReason = item.failReason := by
      simp [applyItem, takeFields, hReason]
    simp [showsFailure, hCopy, hReason]
  · exact showsFailure_of_status hStatus

def Pass.hasUnsaved : Pass → Bool
  | .saving _ => true
  | _ => false

def Pass.owesRefund : Pass → Bool
  | .refunding _ => true
  | _ => false

section

variable {s : State} {p : Nat} {x y : Pass}

theorem Pass.ne_saving (h : x.hasUnsaved = false) (t : Task) : x ≠ .saving t := by
  intro hx
  rw [hx] at h
  cases h

theorem Pass.ne_refunding (h : x.owesRefund = false) (t : Task) : x ≠ .refunding t := by
  intro hx
  rw [hx] at h
  cases h

theorem setPass_cases {q : Nat} (h : (s.setPass p x).passes q = y) :
    (q = p ∧ x = y) ∨ (q ≠ p ∧ s.passes q = y) := by
  by_cases hq : q = p
  · subst hq
    exact Or.inl ⟨rfl, by simpa [State.setPass] using h⟩
  · exact Or.inr ⟨hq, by simpa [State.setPass, hq] using h⟩

theorem setPass_self : (s.setPass p x).passes p = x := by simp [State.setPass]

theorem setPass_of_ne {q : Nat} (h : q ≠ p) : (s.setPass p x).passes q = s.passes q := by
  simp [State.setPass, h]

theorem noUnsaved_setPass (h : NoUnsaved s.passes) (hx : x.hasUnsaved = false) :
    NoUnsaved (s.setPass p x).passes := by
  intro q t hq
  rcases setPass_cases hq with ⟨-, hNew⟩ | ⟨-, hOld⟩
  · exact Pass.ne_saving hx t hNew
  · exact h q t hOld

theorem noUnsaved_of_only (hOnly : ∀ q u, s.passes q = .saving u → q = p)
    (hx : x.hasUnsaved = false) : NoUnsaved (s.setPass p x).passes := by
  intro q t hq
  rcases setPass_cases hq with ⟨-, hNew⟩ | ⟨hne, hOld⟩
  · exact Pass.ne_saving hx t hNew
  · exact hne (hOnly q t hOld)

variable {t : Task}

theorem Inv.sweeping_setPass (h : Inv s)
    (hx : ∀ t, x = .sweeping t → t.status.isTerminal = false) {q : Nat}
    (hq : (s.setPass p x).passes q = .sweeping t) : t.status.isTerminal = false := by
  rcases setPass_cases hq with ⟨-, hNew⟩ | ⟨-, hOld⟩
  · exact hx t hNew
  · exact h.sweeping q t hOld

/-- With nobody about to refund, there is nothing to say about who is. -/
theorem Inv.of_nobody (hSweeping : ∀ q t, s.passes q = .sweeping t → t.status.isTerminal = false)
    (hNobody : ∀ q t, s.passes q ≠ .refunding t) (hRefunded : Refunded s) : Inv s where
  sweeping := hSweeping
  owed q t hq := absurd hq (hNobody q t)
  unique q _ t _ hq _ := absurd hq (hNobody q t)
  refunded := hRefunded

theorem Inv.nobody_refunding (h : Inv s) (hRow : s.row.status ≠ .failure) (q : Nat) (t : Task) :
    s.passes q ≠ .refunding t := fun hq => hRow (h.owed q t hq).2.1

theorem Inv.not_refunded (h : Inv s) (hRow : showsFailure s.row = false)
    (hUnsaved : NoUnsavedFailure s.passes) : s.refunds = 0 := by
  rcases h.refunded with hNever | ⟨-, hShows, -⟩ | ⟨-, -, q, t, hPass, hTask, -⟩
  · exact hNever
  · rw [hRow] at hShows
    cases hShows
  · rw [hUnsaved q t hPass] at hTask
    cases hTask

/-- An action that neither refunds nor saves, and leaves the row or moves it to `FAILURE` while no
failure waits to be saved. -/
theorem inv_quiet {row : Task} (h : Inv s) (hPass : s.passes p = y) (hOld : y.hasUnsaved = false)
    (hSaving : x.hasUnsaved = false) (hRefunding : x.owesRefund = false)
    (hSweeping : ∀ t, x = .sweeping t → t.status.isTerminal = false)
    (hRow : row = s.row ∨ (row.status = .failure ∧ NoUnsavedFailure s.passes)) :
    Inv { s.setPass p x with row := row } := by
  have hOther : ∀ q t, (s.setPass p x).passes q = .refunding t → s.passes q = .refunding t := by
    intro q t hq
    rcases setPass_cases hq with ⟨-, hNew⟩ | ⟨-, hq⟩
    · exact absurd hNew (Pass.ne_refunding hRefunding t)
    · exact hq
  constructor
  · intro q t hq
    exact h.sweeping_setPass hSweeping hq
  · intro q t hq
    obtain ⟨hNone, hStatus, hUnsaved⟩ := h.owed q t (hOther q t hq)
    refine ⟨hNone, ?_, noUnsaved_setPass hUnsaved hSaving⟩
    rcases hRow with hRow | ⟨hRow, -⟩
    · exact (congrArg Task.status hRow).trans hStatus
    · exact hRow
  · intro q q' t u hq hq'
    exact h.unique q q' t u (hOther q t hq) (hOther q' u hq')
  · rcases h.refunded with hNever | ⟨hOne, hShows, hNone⟩ | ⟨hOne, hShows, q, t, hWaits, hTask, hOnly⟩
    · exact .never hNever
    · refine .saved hOne ?_ (noUnsaved_setPass hNone hSaving)
      rcases hRow with hRow | ⟨hRow, -⟩
      · exact (congrArg showsFailure hRow).trans hShows
      · exact showsFailure_of_status hRow
    · rcases hRow with hRow | ⟨-, hUnsaved⟩
      · have hne : q ≠ p := by
          intro hq
          subst hq
          exact Pass.ne_saving hOld t (hPass.symm.trans hWaits)
        refine .unsaved hOne ((congrArg showsFailure hRow).trans hShows) q t
          ((setPass_of_ne hne).trans hWaits) hTask ?_
        intro q' u hq'
        rcases setPass_cases hq' with ⟨-, hNew⟩ | ⟨-, hq'⟩
        · exact absurd hNew (Pass.ne_saving hSaving u)
        · exact hOnly q' u hq'
      · rw [hUnsaved q t hWaits] at hTask
        cases hTask

theorem inv_item {item : SunoDataResponse} {o : Outcome} (h : Inv s)
    (hRow : showsFailure s.row = false) (hUnsaved : NoUnsavedFailure s.passes)
    (hAlone : reportsFailure t item = true → NoUnsaved s.passes) :
    Inv { s.setPass p (.saving (applyItem t item)) with
      world := (refundItem o t item s.world).2
      refunds := countRefund s.refunds (refundItem o t item s.world).1 } := by
  have hNever : s.refunds = 0 := h.not_refunded hRow hUnsaved
  have hStatus : s.row.status ≠ .failure := by
    intro hFailure
    rw [showsFailure_of_status hFailure] at hRow
    cases hRow
  have hNobody : ∀ q u, (s.setPass p (.saving (applyItem t item))).passes q ≠ .refunding u := by
    intro q u hq
    rcases setPass_cases hq with ⟨-, hNew⟩ | ⟨-, hq⟩
    · cases hNew
    · exact h.nobody_refunding hStatus q u hq
  refine Inv.of_nobody (fun q u => h.sweeping_setPass fun _ hx => by cases hx) hNobody ?_
  cases hTook : (refundItem o t item s.world).1 with
  | false => exact .never hNever
  | true =>
    have hReports : reportsFailure t item = true := by
      by_contra hNot
      simp [refundItem, hNot] at hTook
    have hOne : countRefund s.refunds true = 1 := by rw [hNever]; rfl
    refine .unsaved hOne hRow p (applyItem t item) setPass_self
      (applyItem_showsFailure hReports) ?_
    intro q u hq
    rcases setPass_cases hq with ⟨hq, -⟩ | ⟨-, hq⟩
    · exact hq
    · exact absurd hq (hAlone hReports q u)

theorem inv_save {o : Write} (h : Inv s) (hPass : s.passes p = .saving t)
    (hSaved : showsFailure t = true → o.tookEffect = true) :
    Inv { s.setPass p (.holding t) with row := update o s.row t } := by
  have hNobody : ∀ q u, (s.setPass p (.holding t)).passes q ≠ .refunding u := by
    intro q u hq
    rcases setPass_cases hq with ⟨-, hNew⟩ | ⟨-, hq⟩
    · cases hNew
    · exact (h.owed q u hq).2.2 p t hPass
  refine Inv.of_nobody (fun q u => h.sweeping_setPass fun _ hx => by cases hx) hNobody ?_
  rcases h.refunded with hNever | ⟨-, -, hNone⟩ | ⟨hOne, -, q, u, hUnsaved, hTask, hOnly⟩
  · exact .never hNever
  · exact absurd hPass (hNone p t)
  · -- the copy that waits is the one that is saved now
    have hq : p = q := hOnly p t hPass
    subst hq
    have hSame : t = u := by
      rw [hPass] at hUnsaved
      exact Pass.saving.inj hUnsaved
    subst hSame
    refine .saved hOne ?_ (noUnsaved_of_only (x := .holding t) hOnly rfl)
    exact (congrArg showsFailure (update_of_tookEffect (hSaved hTask) s.row t)).trans hTask

theorem inv_sweepWon {task : Task} (h : Inv s) (hStatus : s.row.status ≠ .failure)
    (hTask : task.status = .failure) (hRow : showsFailure s.row = false)
    (hNone : NoUnsaved s.passes) : Inv { s.setPass p (.refunding t) with row := task } := by
  have hNever : s.refunds = 0 := h.not_refunded hRow fun q u hq => absurd hq (hNone q u)
  have hOnly : ∀ q u, (s.setPass p (.refunding t)).passes q = .refunding u → q = p := by
    intro q u hq
    rcases setPass_cases hq with ⟨hq, -⟩ | ⟨-, hq⟩
    · exact hq
    · exact absurd hq (h.nobody_refunding hStatus q u)
  constructor
  · intro q u hq
    exact h.sweeping_setPass (fun _ hx => by cases hx) hq
  · intro q u hq
    exact ⟨hNever, hTask, noUnsaved_setPass (x := .refunding t) hNone rfl⟩
  · intro q q' u v hq hq'
    exact (hOnly q u hq).trans (hOnly q' v hq').symm
  · exact .never hNever

theorem inv_refund {o : Outcome} (h : Inv s) (hPass : s.passes p = .refunding t) :
    Inv { s.setPass p .idle with
      world := (refundTaskQuota o t s.world).2
      refunds := countRefund s.refunds (refundTaskQuota o t s.world).1 } := by
  obtain ⟨hNever, hStatus, hNone⟩ := h.owed p t hPass
  have hNobody : ∀ q u, (s.setPass p .idle).passes q ≠ .refunding u := by
    intro q u hq
    rcases setPass_cases hq with ⟨-, hNew⟩ | ⟨hne, hq⟩
    · cases hNew
    · exact hne (h.unique q p u t hq hPass)
  refine Inv.of_nobody (fun q u => h.sweeping_setPass fun _ hx => by cases hx) hNobody ?_
  cases (refundTaskQuota o t s.world).1 with
  | false => exact .never hNever
  | true =>
    have hOne : countRefund s.refunds true = 1 := by rw [hNever]; rfl
    exact .saved hOne (showsFailure_of_status hStatus)
      (noUnsaved_setPass (x := .idle) hNone rfl)

end

variable {s : State}

theorem inv_pass {p : Nat} {x y : Pass} (h : Inv s) (hPass : s.passes p = y)
    (hOld : y.hasUnsaved = false) (hSaving : x.hasUnsaved = false)
    (hRefunding : x.owesRefund = false)
    (hSweeping : ∀ t, x = .sweeping t → t.status.isTerminal = false) : Inv (s.setPass p x) := by
  have hQuiet : Inv { s.setPass p x with row := s.row } :=
    inv_quiet h hPass hOld hSaving hRefunding hSweeping (Or.inl rfl)
  exact hQuiet

theorem inv_sweep (cfg : Config) {p : Nat} {t : Task} (now : Int) (o : Write) (h : Inv s)
    (hPass : s.passes p = .sweeping t) (hSafe : s.row.status = t.status → NoUnsavedFailure
      s.passes ∧ (sweepRefunds t = true → showsFailure s.row = false ∧ NoUnsaved s.passes)) :
    Inv (step cfg s (.sweep p now o)) := by
  have hOpen := h.sweeping p t hPass
  simp only [step, hPass]
  rcases updateWithStatus_cases o s.row (timeOut cfg.taskTimeoutMinutes now t) t.status with
    hWrite | ⟨hStatus, hWrite⟩
  · have hIdle : Inv { s.setPass p .idle with row := s.row } :=
      inv_quiet h hPass rfl rfl rfl (fun _ hx => by cases hx) (Or.inl rfl)
    rcases hWrite with hWrite | ⟨e, hWrite⟩
    · rwa [hWrite]
    · rwa [hWrite]
  · obtain ⟨hUnsaved, hRefund⟩ := hSafe hStatus
    have hNotFailed : s.row.status ≠ .failure := by
      intro hFailure
      rw [← hStatus, hFailure] at hOpen
      cases hOpen
    have hQuiet : Inv { s.setPass p .idle with
        row := timeOut cfg.taskTimeoutMinutes now t } :=
      inv_quiet h hPass rfl rfl rfl (fun _ hx => by cases hx) (Or.inr ⟨rfl, hUnsaved⟩)
    rcases hWrite with hWrite | ⟨-, e, hWrite⟩
    · rw [hWrite]
      dsimp only
      by_cases hRefunds : sweepRefunds t = true
      · rw [if_pos hRefunds]
        obtain ⟨hShows, hNone⟩ := hRefund hRefunds
        exact inv_sweepWon h hNotFailed rfl hShows hNone
      · rwa [if_neg hRefunds]
    · rwa [hWrite]

theorem inv_step (cfg : Config) {a : Action} (h : Inv s) (hSafe : Safe cfg s a) :
    Inv (step cfg s a) := by
  cases a with
  | read p =>
    cases hPass : s.passes p with
    | idle =>
      simp only [step, hPass]
      split
      · exact inv_pass h hPass rfl rfl rfl fun _ hx => by cases hx
      · exact h
    | _ => simpa only [step, hPass] using h
  | readTimedOut p cutoffUnix =>
    cases hPass : s.passes p with
    | idle =>
      simp only [step, hPass]
      split
      · rename_i hTimedOut
        refine inv_pass h hPass rfl rfl rfl ?_
        intro t ht
        cases ht
        exact Task.timedOut_status hTimedOut.2
      · exact h
    | _ => simpa only [step, hPass] using h
  | channelMissing p failReason o =>
    cases hPass : s.passes p with
    | holding t =>
      simp only [step, hPass]
      refine inv_quiet h hPass rfl rfl rfl (fun _ hx => by cases hx) ?_
      rcases bulkFail_cases o failReason s.row with hSame | hFailure
      · exact Or.inl hSame
      · exact Or.inr ⟨hFailure, hSafe t hPass⟩
    | _ => simpa only [step, hPass] using h
  | item p item o =>
    cases hPass : s.passes p with
    | holding t =>
      simp only [step, hPass]
      split
      · rename_i hNeeds
        obtain ⟨hRow, hUnsaved, hAlone⟩ := hSafe t hPass hNeeds
        exact inv_item h hRow hUnsaved hAlone
      · exact h
    | _ => simpa only [step, hPass] using h
  | save p o =>
    cases hPass : s.passes p with
    | saving t =>
      simp only [step, hPass]
      exact inv_save h hPass (hSafe t hPass)
    | _ => simpa only [step, hPass] using h
  | finish p =>
    cases hPass : s.passes p with
    | holding t =>
      simp only [step, hPass]
      exact inv_pass h hPass rfl rfl rfl fun _ hx => by cases hx
    | _ => simpa only [step, hPass] using h
  | sweep p now o =>
    cases hPass : s.passes p with
    | sweeping t => exact inv_sweep cfg now o h hPass (hSafe t hPass)
    | _ => simpa only [step, hPass] using h
  | refund p o =>
    cases hPass : s.passes p with
    | refunding t =>
      simp only [step, hPass]
      exact inv_refund h hPass
    | _ => simpa only [step, hPass] using h

/-! ## A refunded failure stays -/

def RefundedFailure (s : State) : Prop := s.row.status = .failure ∧ 1 ≤ s.refunds

theorem RefundedFailure.noUnsaved (h : Inv s) (hFailure : RefundedFailure s) :
    NoUnsaved s.passes := by
  obtain ⟨hStatus, hOne⟩ := hFailure
  rcases h.refunded with hNever | ⟨-, -, hNone⟩ | ⟨-, hRow, -⟩
  · omega
  · exact hNone
  · rw [showsFailure_of_status hStatus] at hRow
    cases hRow

theorem le_countRefund (refunds : Nat) (tookEffect : Bool) :
    refunds ≤ countRefund refunds tookEffect := by
  unfold countRefund
  split <;> omega

theorem refundedFailure_sweep (cfg : Config) {p : Nat} {t : Task} (now : Int) (o : Write)
    (hFailure : RefundedFailure s) (hPass : s.passes p = .sweeping t)
    (hOpen : t.status.isTerminal = false) : RefundedFailure (step cfg s (.sweep p now o)) := by
  have hne : s.row.status ≠ t.status := by
    intro hStatus
    rw [← hStatus, hFailure.1] at hOpen
    cases hOpen
  simp only [step, hPass]
  rcases updateWithStatus_cases o s.row (timeOut cfg.taskTimeoutMinutes now t) t.status with
    (hWrite | ⟨e, hWrite⟩) | ⟨hStatus, -⟩
  · rwa [hWrite]
  · rwa [hWrite]
  · exact absurd hStatus hne

theorem refundedFailure_step (cfg : Config) (a : Action) (h : Inv s)
    (hFailure : RefundedFailure s) : RefundedFailure (step cfg s a) := by
  obtain ⟨hStatus, hOne⟩ := hFailure
  cases a with
  | read p | readTimedOut p cutoffUnix =>
    simp only [step]
    split
    · split <;> exact ⟨hStatus, hOne⟩
    · exact ⟨hStatus, hOne⟩
  | channelMissing p failReason o =>
    simp only [step]
    split
    · rcases bulkFail_cases o failReason s.row with hSame | hNew
      · exact ⟨(congrArg Task.status hSame).trans hStatus, hOne⟩
      · exact ⟨hNew, hOne⟩
    · exact ⟨hStatus, hOne⟩
  | item p item o =>
    simp only [step]
    split
    · split
      · exact ⟨hStatus, le_trans hOne (le_countRefund _ _)⟩
      · exact ⟨hStatus, hOne⟩
    · exact ⟨hStatus, hOne⟩
  | save p o =>
    cases hPass : s.passes p with
    | saving t => exact absurd hPass (RefundedFailure.noUnsaved h ⟨hStatus, hOne⟩ p t)
    | _ =>
      simp only [step, hPass]
      exact ⟨hStatus, hOne⟩
  | finish p =>
    simp only [step]
    split <;> exact ⟨hStatus, hOne⟩
  | sweep p now o =>
    cases hPass : s.passes p with
    | sweeping t =>
      exact refundedFailure_sweep cfg now o ⟨hStatus, hOne⟩ hPass (h.sweeping p t hPass)
    | _ =>
      simp only [step, hPass]
      exact ⟨hStatus, hOne⟩
  | refund p o =>
    simp only [step]
    split
    · exact ⟨hStatus, le_trans hOne (le_countRefund _ _)⟩
    · exact ⟨hStatus, hOne⟩

/-! ## Refunded once -/

structure Initial (s : State) : Prop where
  idle : ∀ p, s.passes p = .idle
  unrefunded : s.refunds = 0

theorem Initial.inv (h : Initial s) : Inv s := by
  refine Inv.of_nobody ?_ ?_ (.never h.unrefunded)
  · intro p t hp
    rw [h.idle] at hp
    cases hp
  · intro p t hp
    rw [h.idle] at hp
    cases hp

/-- In every run whose actions are all safe, the task is refunded at most once, and once it is
`FAILURE` and refunded it stays `FAILURE`. -/
theorem suno_task_refunded_once (cfg : Config) {s : State} (hs : Initial s) {l : List Action}
    (hl : Guarded (step cfg) (Safe cfg) s l) :
    (run (step cfg) s l).refunds ≤ 1 ∧
      ∀ l₁ l₂, l = l₁ ++ l₂ → RefundedFailure (run (step cfg) s l₁) →
        (run (step cfg) s l).row.status = .failure := by
  have hStep : ∀ s a, Inv s → Safe cfg s a → Inv (step cfg s a) :=
    fun _ _ h hSafe => inv_step cfg h hSafe
  refine ⟨?_, ?_⟩
  · rcases (Guarded.invariant hStep hs.inv hl).refunded with h | ⟨h, -, -⟩ | ⟨h, -⟩
    · omega
    · omega
    · omega
  · intro l₁ l₂ hSplit hFailure
    rw [hSplit, guarded_append] at hl
    have hInv : Inv (run (step cfg) s l₁) := Guarded.invariant hStep hs.inv hl.1
    have hBoth : Inv (run (step cfg) (run (step cfg) s l₁) l₂) ∧
        RefundedFailure (run (step cfg) (run (step cfg) s l₁) l₂) :=
      Guarded.invariant (I := fun s => Inv s ∧ RefundedFailure s)
        (fun _ a h hSafe => ⟨inv_step cfg h.1 hSafe, refundedFailure_step cfg a h.1 h.2⟩)
        ⟨hInv, hFailure⟩ hl.2
    rw [hSplit, run_append]
    exact hBoth.2.1

/-! ## Items of a failed task -/

def sampleConfig : Config := ⟨id, 60⟩

def sampleState : State := ⟨sampleTask .inProgress, fun _ => .idle, sampleWorld 300, 0⟩

def failedItem (finishTime : Int) : SunoDataResponse :=
  ⟨"FAILURE", "blocked", 1800000000, 0, finishTime, "\"blocked\""⟩

theorem read_sampleState :
    step sampleConfig sampleState (.read 0) = sampleState.setPass 0 (.holding sampleState.row) := by
  have hUnfinished : sampleState.row.unfinished = true := by decide
  have hIdle : sampleState.passes 0 = .idle := rfl
  simp only [step, hIdle, hUnfinished, if_true]

theorem failed_item_refunded_once :
    let s := run (step sampleConfig) sampleState
      [.read 0, .item 0 (failedItem 1800000100) .good, .save 0 .ok]
    s.refunds = 1 ∧ s.world.users 1 = 400 ∧ s.row.status = .failure := by
  have hNone : NoUnsaved (step sampleConfig sampleState (.read 0)).passes := by
    rw [read_sampleState]
    exact noUnsaved_setPass (x := .holding sampleState.row) (fun _ _ hx => by cases hx) rfl
  have hRow : showsFailure (step sampleConfig sampleState (.read 0)).row = false := by
    rw [read_sampleState]
    decide
  have hSafe : Guarded (step sampleConfig) (Safe sampleConfig) sampleState
      [.read 0, .item 0 (failedItem 1800000100) .good, .save 0 .ok] := by
    refine ⟨trivial, ?_, ?_, trivial⟩
    · intro t _ _
      exact ⟨hRow, fun q u hq => absurd hq (hNone q u), fun _ => hNone⟩
    · intro t _ _
      rfl
  have hOnce := suno_task_refunded_once sampleConfig ⟨fun _ => rfl, rfl⟩ hSafe
  have hFailure : RefundedFailure (run (step sampleConfig) sampleState
      [.read 0, .item 0 (failedItem 1800000100) .good, .save 0 .ok]) :=
    ⟨by decide, by decide⟩
  exact ⟨Nat.le_antisymm hOnce.1 hFailure.2, by decide,
    hOnce.2 _ [] (List.append_nil _).symm hFailure⟩

/-- Two items of one response that differ in the finish time refund the task twice, and a pass
that read the row before the sweep puts a refunded task back to work. -/
theorem failed_task_refunded_twice_or_revived :
    let twice := run (step sampleConfig) sampleState
      [.read 0, .item 0 (failedItem 1800000100) .good, .save 0 .ok,
        .item 0 (failedItem 1800000200) .good, .save 0 .ok]
    let swept := run (step sampleConfig) sampleState
      [.read 0, .readTimedOut 1 1800003600, .sweep 1 1800003600 .ok, .refund 1 .good]
    let revived := run (step sampleConfig) swept
      [.item 0 ⟨"IN_PROGRESS", "", 1800000000, 1800000001, 0, ""⟩ .good, .save 0 .ok]
    (twice.refunds = 2 ∧ twice.world.users 1 = 500) ∧
      (swept.row.status = .failure ∧ swept.refunds = 1) ∧ revived.row.status = .inProgress := by
  decide

end Qapi.Async.Suno
