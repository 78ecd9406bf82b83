import Qapi.Core.Table
import Qapi.Async.Basic

/-!
# System tasks and their locks

The tables of `model/system_task.go` with their unique indexes, and the statements on
them, each as the `WHERE` clause and the columns that it sets. A statement may fail
without effect, or take effect and lose its answer.
-/

namespace Qapi.SystemTask

open Qapi.Core List
open Async (Write)

/-- `SystemTaskStatus`. -/
inductive Status
  | pending
  | running
  | succeeded
  | failed
deriving DecidableEq, Repr

/-- The statuses of `activeSystemTaskStatuses`. -/
def Status.isActive (s : Status) : Bool := s = .pending || s = .running

/-- The statuses with which a handler finishes its task. -/
def FinalStatus : Type := { s : Status // s.isActive = false }

instance : DecidableEq FinalStatus := inferInstanceAs
    (DecidableEq { s : Status // s.isActive = false })

def FinalStatus.succeeded : FinalStatus := ⟨.succeeded, rfl⟩

def FinalStatus.failed : FinalStatus := ⟨.failed, rfl⟩

/-- `SystemTask`. -/
structure Task where
  id : Int
  taskID : String
  type : String
  status : Status
  activeKey : Option String
  payload : String
  state : String
  result : String
  error : String
  lockedBy : String
  createdAt : Int
  updatedAt : Int
deriving DecidableEq, Repr

/-- `SystemTaskLock`. -/
structure Lock where
  type : String
  taskID : String
  lockedBy : String
  lockedUntil : Int
  updatedAt : Int
deriving DecidableEq, Repr

/-- The tasks, with the unique indexes on `task_id` and `active_key` besides the primary key. -/
structure Tasks extends Table Task.id where
  taskIDs : UniqueOn (fun t : Task => some t.taskID) rows
  activeKeys : UniqueOn Task.activeKey rows

/-- Both tables. The type is the primary key of the locks. -/
structure Db where
  tasks : Tasks
  locks : Table Lock.type

/-! ## Statements on the tasks -/

/-- The columns that an update of tasks may set. It leaves the keys alone but may clear
`active_key`. -/
structure Change where
  set : Task → Task
  id : ∀ t, (set t).id = t.id
  taskID : ∀ t, (set t).taskID = t.taskID
  type : ∀ t, (set t).type = t.type
  activeKey : ∀ t, (set t).activeKey = t.activeKey ∨ (set t).activeKey = none

def Change.onRow (c : Change) (p : Task → Bool) (t : Task) : Task := if p t then c.set t else t

theorem Change.onRow_cases (c : Change) (p : Task → Bool) (t : Task) :
    (p t = true ∧ c.onRow p t = c.set t) ∨ (p t = false ∧ c.onRow p t = t) := by
  unfold Change.onRow
  cases p t <;> simp

theorem Change.onRow_taskID (c : Change) (p : Task → Bool) (t : Task) :
    (c.onRow p t).taskID = t.taskID := by
  rcases c.onRow_cases p t with ⟨-, h⟩ | ⟨-, h⟩
  · rw [h, c.taskID]
  · rw [h]

theorem Change.onRow_type (c : Change) (p : Task → Bool) (t : Task) :
    (c.onRow p t).type = t.type := by
  rcases c.onRow_cases p t with ⟨-, h⟩ | ⟨-, h⟩
  · rw [h, c.type]
  · rw [h]

theorem Change.onRow_id (c : Change) (p : Task → Bool) (t : Task) :
    (c.onRow p t).id = t.id := by
  rcases c.onRow_cases p t with ⟨-, h⟩ | ⟨-, h⟩
  · rw [h, c.id]
  · rw [h]

theorem Change.onRow_activeKey (c : Change) (p : Task → Bool) (t : Task) :
    (c.onRow p t).activeKey = t.activeKey ∨ (c.onRow p t).activeKey = none := by
  rcases c.onRow_cases p t with ⟨-, h⟩ | ⟨-, h⟩
  · rw [h]
    exact c.activeKey t
  · rw [h]
    exact Or.inl rfl

/-- `UPDATE system_tasks SET … WHERE p`. -/
def Tasks.update (ts : Tasks) (p : Task → Bool) (c : Change) : Tasks where
  rows := ts.rows.map (c.onRow p)
  nodup := (ts.toTable.modify p c.set c.id).nodup
  taskIDs := ts.taskIDs.map fun t => Or.inl (congrArg some (c.onRow_taskID p t))
  activeKeys := ts.activeKeys.map (c.onRow_activeKey p)

/-- `INSERT INTO system_tasks`, which the unique indexes may refuse. -/
def Tasks.insert (ts : Tasks) (t : Task) : Option Tasks :=
  if h : (∀ a ∈ ts.rows, a.id ≠ t.id) ∧ (∀ a ∈ ts.rows, some a.taskID ≠ some t.taskID) ∧
      (t.activeKey = none ∨ ∀ a ∈ ts.rows, a.activeKey ≠ t.activeKey) then
    some
      { rows := ts.rows ++ [t]
        nodup := by
          rw [map_append, nodup_append]
          refine ⟨ts.nodup, by simp, ?_⟩
          intro k hk k' hk'
          obtain ⟨a, ha, rfl⟩ := mem_map.mp hk
          obtain rfl : k' = t.id := by simpa using hk'
          exact h.1 a ha
        taskIDs := ts.taskIDs.append_singleton (Or.inr h.2.1)
        activeKeys := ts.activeKeys.append_singleton h.2.2 }
  else none

theorem Tasks.mem_update {ts : Tasks} {p : Task → Bool} {c : Change} {t : Task} :
    t ∈ (ts.update p c).rows ↔ ∃ u ∈ ts.rows, c.onRow p u = t := mem_map

theorem Tasks.mem_update_cases {ts : Tasks} {p : Task → Bool} {c : Change} {t : Task} :
    t ∈ (ts.update p c).rows ↔
      (∃ u ∈ ts.rows, p u = true ∧ c.set u = t) ∨ (t ∈ ts.rows ∧ p t = false) := by
  rw [Tasks.mem_update]
  constructor
  · rintro ⟨u, hu, rfl⟩
    rcases c.onRow_cases p u with ⟨hp, hRow⟩ | ⟨hp, hRow⟩
    · exact Or.inl ⟨u, hu, hp, hRow.symm⟩
    · rw [hRow]
      exact Or.inr ⟨hu, hp⟩
  · rintro (⟨u, hu, hp, rfl⟩ | ⟨ht, hp⟩)
    · exact ⟨u, hu, if_pos hp⟩
    · exact ⟨t, ht, if_neg (Bool.eq_false_iff.mp hp)⟩

theorem Tasks.eq_of_rows {ts us : Tasks} (h : ts.rows = us.rows) : ts = us := by
  obtain ⟨⟨_, _⟩, _, _⟩ := ts
  obtain ⟨⟨_, _⟩, _, _⟩ := us
  cases h
  rfl

theorem Tasks.update_eq_self {ts : Tasks} {p : Task → Bool} (h : ∀ t ∈ ts.rows, p t = false)
    (c : Change) : ts.update p c = ts := by
  apply Tasks.eq_of_rows
  conv_rhs => rw [← map_id ts.rows]
  apply map_congr_left
  intro t ht
  simp [Change.onRow, h t ht]

theorem Tasks.insert_eq_some {ts us : Tasks} {t : Task} (h : ts.insert t = some us) :
    us.rows = ts.rows ++ [t] ∧ (∀ a ∈ ts.rows, a.id ≠ t.id) ∧ (∀ a ∈ ts.rows, a.taskID ≠ t.taskID) ∧
      (t.activeKey = none ∨ ∀ a ∈ ts.rows, a.activeKey ≠ t.activeKey) := by
  unfold Tasks.insert at h
  split at h
  · rename_i hFree
    cases h
    refine ⟨rfl, hFree.1, ?_, hFree.2.2⟩
    intro a ha hEq
    exact hFree.2.1 a ha (congrArg some hEq)
  · cases h

theorem Tasks.eq_of_taskID (ts : Tasks) {a b : Task} (ha : a ∈ ts.rows) (hb : b ∈ ts.rows)
    (h : a.taskID = b.taskID) : a = b :=
  ts.taskIDs.eq ha hb rfl (congrArg some h.symm)

/-- `ClaimSystemTask` takes over the row. -/
def Change.claim (runnerID : String) (now : Int) : Change where
  set t := { t with status := .running, lockedBy := runnerID, updatedAt := now }
  id _ := rfl
  taskID _ := rfl
  type _ := rfl
  activeKey _ := Or.inl rfl

/-- `MarkSystemTaskLeaseExpired`. -/
def Change.leaseExpired (now : Int) : Change where
  set t :=
    { t with status := .failed, activeKey := none, error := "task lease expired", updatedAt := now }
  id _ := rfl
  taskID _ := rfl
  type _ := rfl
  activeKey _ := Or.inr rfl

/-- `UpdateSystemTaskState`. -/
def Change.state (text : String) (now : Int) : Change where
  set t := { t with state := text, updatedAt := now }
  id _ := rfl
  taskID _ := rfl
  type _ := rfl
  activeKey _ := Or.inl rfl

/-- `FinishSystemTask`. -/
def Change.finish (status : FinalStatus) (result error : String) (now : Int) : Change where
  set t := { t with status := status.1, activeKey := none, result := result, error := error,
                    updatedAt := now }
  id _ := rfl
  taskID _ := rfl
  type _ := rfl
  activeKey _ := Or.inr rfl

/-! ## Conditions -/

/-- `id = ? AND type = ? AND status = 'pending'`. -/
def Task.claimable (id : Int) (type : String) (t : Task) : Bool :=
  t.id = id && t.type = type && t.status = .pending

/-- `task_id = ? AND status = 'running'`. -/
def Task.runs (taskID : String) (t : Task) : Bool := t.taskID = taskID && t.status = .running

/-- `task_id = ? AND status = 'running' AND locked_by = ?`, with the lock on the task held by the
same runner and not expired. -/
def Task.leased (locks : Table Lock.type) (taskID lockedBy : String) (now : Int) (t : Task) :
    Bool :=
  t.taskID = taskID && t.status = .running && t.lockedBy = lockedBy &&
    locks.rows.any fun l => l.taskID = t.taskID && l.lockedBy =
      lockedBy && decide (now ≤ l.lockedUntil)

/-- `type = ? AND locked_until < ?`. -/
def Lock.stale (type : String) (now : Int) (l : Lock) : Bool :=
  l.type = type && decide (l.lockedUntil < now)

/-- `task_id = ? AND locked_by = ?`. -/
def Lock.isOf (taskID lockedBy : String) (l : Lock) : Bool :=
  l.taskID = taskID && l.lockedBy = lockedBy

def Lock.sweepable (seen : Lock) (now : Int) (l : Lock) : Bool :=
  l.type = seen.type && l.taskID = seen.taskID && l.lockedBy = seen.lockedBy &&
    decide (l.lockedUntil < now)

/-- The lock as `acquireSystemTaskLock` takes it over. -/
def Lock.taken (taskID lockedBy : String) (lockUntil now : Int) (l : Lock) : Lock :=
  { l with taskID := taskID, lockedBy := lockedBy, lockedUntil := lockUntil, updatedAt := now }

/-- The lock as `RenewSystemTaskLock` prolongs it. -/
def Lock.renewed (lockUntil now : Int) (l : Lock) : Lock :=
  { l with lockedUntil := lockUntil, updatedAt := now }

theorem Lock.taken_type (taskID lockedBy : String) (lockUntil now : Int) (l : Lock) :
    (l.taken taskID lockedBy lockUntil now).type = l.type := rfl

theorem Lock.renewed_type (lockUntil now : Int) (l : Lock) :
    (l.renewed lockUntil now).type = l.type := rfl

end Qapi.SystemTask
