import Mathlib.Data.Rat.Defs
import Qapi.Core.Result
import Qapi.Core.Table

/-!
# Async tasks

The row of an async task and its statuses (`model/task.go`), the queries by which a
pass over the unfinished tasks reads it, and the statements that write it back: the
compare-and-swap on the status, the unconditional save, and the bulk update.
-/

namespace Qapi.Async

open Qapi.Core

/-- `TaskStatus`; `other` is a text that the program has no name for. -/
inductive TaskStatus
  | notStart
  | submitted
  | queued
  | inProgress
  | failure
  | success
  | unknown
  | other (text : String)
deriving DecidableEq, Repr

def TaskStatus.ofText (s : String) : TaskStatus :=
  (([("NOT_START", .notStart), ("SUBMITTED", .submitted), ("QUEUED", .queued),
    ("IN_PROGRESS", .inProgress), ("FAILURE", .failure), ("SUCCESS", .success),
    ("UNKNOWN", .unknown)] : List (String × TaskStatus)).lookup s).getD (.other s)

def TaskStatus.isTerminal (s : TaskStatus) : Bool := s = .failure || s = .success

/-- `TaskBillingContext`, as far as the settlement reads it; the other ratios are in the order
in which they are applied. -/
structure TaskBillingContext where
  otherRatios : List ℚ
  originModelName : String
  perCallBilling : Bool
deriving DecidableEq, Repr

/-- `Task` with its private data, as far as polling and billing use them. -/
structure Task where
  id : Int
  taskID : String
  userId : Int
  group : String
  channelId : Int
  quota : Int
  status : TaskStatus
  failReason : String
  submitTime : Int
  startTime : Int
  finishTime : Int
  progress : String
  originModelName : String
  resultURL : String
  billingSource : String
  subscriptionId : Int
  tokenId : Int
  billingContext : Option TaskBillingContext
  data : String
deriving DecidableEq, Repr

/-! ## Queries -/

/-- The condition of `GetAllUnFinishSyncTasks`. -/
def Task.unfinished (t : Task) : Bool := t.progress ≠ "100%" && !t.status.isTerminal

/-- The condition of `GetTimedOutUnfinishedTasks`. -/
def Task.timedOut (t : Task) (cutoffUnix : Int) : Bool :=
  t.unfinished && decide (t.submitTime < cutoffUnix)

theorem Task.unfinished_status {t : Task} (h : t.unfinished = true) :
    t.status.isTerminal = false := by
  simp only [Task.unfinished, Bool.and_eq_true, Bool.not_eq_true'] at h
  exact h.2

theorem Task.timedOut_status {t : Task} {cutoffUnix : Int} (h : t.timedOut cutoffUnix = true) :
    t.status.isTerminal = false := by
  simp only [Task.timedOut, Bool.and_eq_true] at h
  exact Task.unfinished_status h.1

/-! ## Statements -/

/-- How a statement on the row ends: it goes through, or an error is returned and the
statement has not taken effect (`failed`) or has (`lost`). -/
inductive Write
  | ok
  | failed (e : Err)
  | lost (e : Err)
deriving DecidableEq, Repr

def Write.tookEffect : Write → Bool
  | .failed _ => false
  | _ => true

def Write.isLost : Write → Bool
  | .lost _ => true
  | _ => false

def Write.error? : Write → Option Err
  | .ok => none
  | .failed e => some e
  | .lost e => some e

/-- A table after a statement, given what the statement makes of it. -/
def Write.after {α : Type*} (o : Write) (new old : α) : α := if o.tookEffect then new else old

theorem Write.after_ok {α : Type*} (new old : α) : Write.after .ok new old = new := rfl

theorem Write.after_cases {α : Type*} (o : Write) (new old : α) :
    o.after new old = new ∨ o.after new old = old := by
  unfold Write.after
  split
  · exact Or.inl rfl
  · exact Or.inr rfl

theorem Write.after_rec {α : Type*} {P : α → Prop} {new old : α} (hNew : P new) (hOld : P old)
    (o : Write) : P (o.after new old) := by
  unfold Write.after
  split
  · exact hNew
  · exact hOld

/-- `UpdateWithStatus`: the row afterwards and whether the caller won, or the error. -/
def updateWithStatus (o : Write) (row task : Task) (fromStatus : TaskStatus) :
    Task × Except Err Bool :=
  match o with
  | .ok => if row.status = fromStatus then (task, .ok true) else (row, .ok false)
  | .failed e => (row, .error e)
  | .lost e => (if row.status = fromStatus then task else row, .error e)

/-- `Update`: the row after an unconditional save. -/
def update (o : Write) (row task : Task) : Task :=
  match o with
  | .ok => task
  | .failed _ => row
  | .lost _ => task

/-- `TaskBulkUpdateByID` for tasks whose channel cannot be loaded. -/
def bulkFail (o : Write) (failReason : String) (row : Task) : Task :=
  match o with
  | .failed _ => row
  | _ => { row with failReason := failReason, status := .failure, progress := "100%" }

theorem update_of_tookEffect {o : Write} (h : o.tookEffect = true) (row task : Task) :
    update o row task = task := by
  cases o with
  | failed e => cases h
  | ok => rfl
  | lost e => rfl

theorem bulkFail_cases (o : Write) (failReason : String) (row : Task) :
    bulkFail o failReason row = row ∨ (bulkFail o failReason row).status = .failure := by
  cases o with
  | failed e => exact Or.inl rfl
  | ok => exact Or.inr rfl
  | lost e => exact Or.inr rfl

/-- The answer to a caller that has not won. -/
def Loses {α : Type*} (old : α) (x : α × Except Err Bool) : Prop :=
  x = (old, .ok false) ∨ ∃ e, x = (old, .error e)

/-- The answer to a caller that has won, which may get lost. -/
def Wins {α : Type*} (o : Write) (new : α) (x : α × Except Err Bool) : Prop :=
  x = (new, .ok true) ∨ o.isLost = true ∧ ∃ e, x = (new, .error e)

/-- Everything that the compare-and-swap can do: nothing, or, from the status it names, write
the task; the caller wins only in the second case. -/
theorem updateWithStatus_cases (o : Write) (row task : Task) (fromStatus : TaskStatus) :
    Loses row (updateWithStatus o row task fromStatus) ∨
      (row.status = fromStatus ∧ Wins o task (updateWithStatus o row task fromStatus)) := by
  by_cases hStatus : row.status = fromStatus
  · cases o with
    | failed e => exact Or.inl (Or.inr ⟨e, rfl⟩)
    | ok => exact Or.inr ⟨hStatus, Or.inl (if_pos hStatus)⟩
    | lost e => exact Or.inr ⟨hStatus, Or.inr ⟨rfl, e, by simp [updateWithStatus, hStatus]⟩⟩
  · refine Or.inl ?_
    cases o <;> simp [updateWithStatus, hStatus, Loses]

section

variable {K R : Type*} [DecidableEq K] {key : R → K}

/-- A save over a stored row that meets the condition: the table afterwards and whether a row was
affected, or the error. -/
def saveIf (o : Write) (rows : Table key) (p : R → Bool) (r : R) : Table key × Except Err Bool :=
  match o with
  | .ok =>
    let (rows, won) := rows.saveWhere p r
    (rows, .ok won)
  | .failed e => (rows, .error e)
  | .lost e => ((rows.saveWhere p r).1, .error e)

/-- Everything that a guarded save can do: nothing, or, over a stored row that meets the condition,
write the row; the caller wins only in the second case. -/
theorem saveIf_cases (o : Write) (rows : Table key) (p : R → Bool) (r : R) :
    Loses rows (saveIf o rows p r) ∨ ∃ s, rows.find? (key r) = some s ∧ p s = true ∧
      Wins o (rows.save r) (saveIf o rows p r) := by
  rcases rows.saveWhere_cases p r with hSame | ⟨s, hFind, hp, hSaved⟩
  · refine Or.inl ?_
    cases o <;> simp [saveIf, hSame, Loses]
  · cases o with
    | failed e => exact Or.inl (Or.inr ⟨e, rfl⟩)
    | ok => exact Or.inr ⟨s, hFind, hp, Or.inl (by simp [saveIf, hSaved])⟩
    | lost e => exact Or.inr ⟨s, hFind, hp, Or.inr ⟨rfl, e, by simp [saveIf, hSaved]⟩⟩

end

/-! ## Timeouts -/

def legacyTaskCutoff : Int := 1740182400

/-- Whether the sweep takes the task for one of the old system, which is not refunded. -/
def Task.isLegacy (t : Task) : Bool :=
  decide (0 < t.submitTime) && decide (t.submitTime < legacyTaskCutoff)

def timeoutReason (minutes : Int) : String := "任务超时（" ++ toString minutes ++ "分钟）"

/-- What `sweepTimedOutTasks` writes for a task that has timed out. -/
def timeOut (minutes now : Int) (t : Task) : Task :=
  { t with
    status := .failure
    progress := "100%"
    finishTime := now
    failReason :=
      if t.isLegacy then "任务超时（旧系统遗留任务，不进行退款，请联系管理员）"
      else timeoutReason minutes }

def sweepRefunds (t : Task) : Bool := !t.isLegacy && t.quota ≠ 0

def sampleTask (status : TaskStatus) : Task where
  id := 1
  taskID := "task_1"
  userId := 1
  group := "default"
  channelId := 1
  quota := 100
  status := status
  failReason := ""
  submitTime := 1800000000
  startTime := 0
  finishTime := 0
  progress := "30%"
  originModelName := "sora-2"
  resultURL := ""
  billingSource := "wallet"
  subscriptionId := 0
  tokenId := 0
  billingContext := none
  data := ""

end Qapi.Async
