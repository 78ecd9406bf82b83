import Qapi.Core.Machine
import Qapi.SystemTask.Basic

/-!
# Runners

Any number of runners, statement by statement. The loop of a runner sweeps expired locks
and claims tasks, one call after the other; the handlers of claimed tasks renew the lock,
write the state of the task and finish it, all at the same time. A call reads the clock
when it starts and may stall for any time before each of its statements, and a runner may
crash at any point.
-/

namespace Qapi.SystemTask

open Qapi.Core List Tasks Function Table
open Async (Write)

/-! ## The loop of a runner -/

/-- The arguments of `ClaimSystemTask` and the time it has read. -/
structure Claim where
  id : Int
  type : String
  lockUntil : Int
  now : Int
deriving DecidableEq, Repr

/-- Where the loop is: each phase names the statement that comes next. -/
inductive Loop
  | idle
  | claimRead (c : Claim)
  | claimInsert (c : Claim) (taskID : String)
  | claimLook (c : Claim) (taskID : String)
  | claimTake (c : Claim) (taskID expiredTaskID : String)
  | claimMark (c : Claim) (taskID expiredTaskID : String)
  | claimUpdate (c : Claim) (taskID : String)
  | claimRelease (c : Claim) (taskID : String)
  | claimReload (c : Claim)
  | sweepRead (now : Int)
  | sweepMark (now : Int) (lock : Lock) (rest : List Lock)
  | sweepDelete (now : Int) (lock : Lock) (rest : List Lock)
deriving DecidableEq, Repr

/-- `MarkSystemTaskLeaseExpired`. -/
def Db.markSystemTaskLeaseExpired (db : Db) (o : Write) (clock : Int) (taskID : String) : Db :=
  { db with tasks := o.after (db.tasks.update (Task.runs taskID) (.leaseExpired clock)) db.tasks }

/-- `ReleaseSystemTaskLock`. -/
def Db.releaseSystemTaskLock (db : Db) (o : Write) (taskID lockedBy : String) : Db :=
  { db with locks := o.after (db.locks.delete (Lock.isOf taskID lockedBy)) db.locks }

def Loop.sweep (now : Int) : List Lock → Loop
  | [] => .idle
  | lock :: rest => .sweepMark now lock rest

def Loop.acquired (c : Claim) (taskID expiredTaskID : String) : Loop :=
  if expiredTaskID ≠ "" ∧ expiredTaskID ≠ taskID then .claimMark c taskID expiredTaskID
  else .claimUpdate c taskID

/-- The next statement of the loop of the runner. A read whose answer is lost has failed. -/
def Loop.exec (runnerID : String) (clock : Int) (o : Write) (db : Db) : Loop → Loop × Db
  | .idle => (.idle, db)
  | .claimRead c =>
    match o, db.tasks.rows.find? (Task.claimable c.id c.type) with
    | .ok, some t => (.claimInsert c t.taskID, db)
    | _, _ => (.idle, db)
  | .claimInsert c taskID =>
    match db.locks.create ⟨c.type, taskID, runnerID, c.lockUntil, c.now⟩ with
    | some locks =>
      (if o = .ok then .claimUpdate c taskID else .claimLook c taskID,
        { db with locks := o.after locks db.locks })
    | none => (.claimLook c taskID, db)
  | .claimLook c taskID =>
    match o, db.locks.find? c.type with
    | .ok, some l => (if l.lockedUntil ≥ c.now then .idle else .claimTake c taskID l.taskID, db)
    | _, _ => (.idle, db)
  | .claimTake c taskID expiredTaskID =>
    let locks := db.locks.modify (Lock.stale c.type c.now)
      (Lock.taken taskID runnerID c.lockUntil c.now)
      (Lock.taken_type taskID runnerID c.lockUntil c.now)
    (if o = .ok ∧ db.locks.rows.any (Lock.stale c.type c.now) then .acquired c taskID expiredTaskID
      else .idle,
      { db with locks := o.after locks db.locks })
  | .claimMark c taskID expiredTaskID =>
    (if o = .ok then .claimUpdate c taskID else .claimRelease c taskID,
      db.markSystemTaskLeaseExpired o clock expiredTaskID)
  | .claimUpdate c taskID =>
    (if o = .ok ∧ db.tasks.rows.any (Task.claimable c.id c.type) then .claimReload c
      else .claimRelease c taskID,
      { db with tasks := o.after (db.tasks.update (Task.claimable c.id c.type)
          (.claim runnerID c.now)) db.tasks })
  | .claimRelease _ taskID => (.idle, db.releaseSystemTaskLock o taskID runnerID)
  | .claimReload _ => (.idle, db)
  | .sweepRead now =>
    (if o = .ok then .sweep now (db.locks.rows.filter fun l => l.lockedUntil < now) else .idle, db)
  | .sweepMark now lock rest =>
    (if o = .ok then .sweepDelete now lock rest else .idle,
      db.markSystemTaskLeaseExpired o clock lock.taskID)
  | .sweepDelete now lock rest =>
    (if o = .ok then .sweep now rest else .idle,
      { db with locks := o.after (db.locks.delete (Lock.sweepable lock now)) db.locks })

/-! ## Handlers -/

inductive Work
  | idle
  | updating (taskID lockedBy text : String) (now : Int)
  | renewing (taskID lockedBy : String) (lockUntil now : Int)
  | finishing (taskID lockedBy : String) (status : FinalStatus) (result error : String) (now : Int)
  | releasing (taskID lockedBy : String)
deriving DecidableEq

def Work.exec (o : Write) (db : Db) : Work → Work × Db
  | .idle => (.idle, db)
  | .updating taskID lockedBy text now =>
    (.idle, { db with tasks := o.after (db.tasks.update (Task.leased db.locks taskID lockedBy now)
      (.state text now)) db.tasks })
  | .renewing taskID lockedBy lockUntil now =>
    (.idle, { db with locks := o.after (db.locks.modify
      (fun l => l.isOf taskID lockedBy && decide (now ≤ l.lockedUntil)) (Lock.renewed lockUntil now)
      (Lock.renewed_type lockUntil now)) db.locks })
  | .finishing taskID lockedBy status result error now =>
    (if o = .ok ∧ db.tasks.rows.any (Task.leased db.locks taskID lockedBy now) then
      .releasing taskID lockedBy else .idle,
      { db with tasks := o.after (db.tasks.update (Task.leased db.locks taskID lockedBy now)
        (.finish status result error now)) db.tasks })
  | .releasing taskID lockedBy => (.idle, db.releaseSystemTaskLock o taskID lockedBy)

/-- The runner that a call writes a task for, and the time it has read. -/
def Work.writer : Work → Option (String × Int)
  | .updating _ lockedBy _ now => some (lockedBy, now)
  | .finishing _ lockedBy _ _ _ now => some (lockedBy, now)
  | _ => none

/-! ## Interleavings -/

/-- The tables, the clock, the loops of the runners and the calls of the handlers. -/
structure State (W : Type*) where
  db : Db
  clock : Int
  loops : String → Loop
  works : W → Work

/-- `create` is `CreateSystemTask`, with the id that the table gives and the id that is generated;
the start of a call reads the clock, and the statements of a loop or a handler follow one at a
time. -/
inductive Action (W : Type*)
  | tick (seconds : Nat)
  | create (id : Int) (taskID type payload state : String) (o : Write)
  | startClaim (runnerID : String) (id : Int) (type : String) (lockUntil : Int)
  | startSweep (runnerID : String)
  | loop (runnerID : String) (o : Write)
  | crash (runnerID : String)
  | startUpdate (w : W) (taskID lockedBy text : String)
  | startRenew (w : W) (taskID lockedBy : String) (lockUntil : Int)
  | startFinish (w : W) (taskID lockedBy : String) (status : FinalStatus) (result error : String)
  | work (w : W) (o : Write)
  | stop (w : W)
deriving DecidableEq

/-- The row that `CreateSystemTask` inserts. -/
def newTask (clock id : Int) (taskID type payload state : String) : Task where
  id := id
  taskID := taskID
  type := type
  status := .pending
  activeKey := some type
  payload := payload
  state := state
  result := ""
  error := ""
  lockedBy := ""
  createdAt := clock
  updatedAt := clock

section

variable {W : Type*} [DecidableEq W]

def State.startLoop (s : State W) (runnerID : String) (p : Loop) : State W :=
  if s.loops runnerID = .idle then { s with loops := update s.loops runnerID p } else s

def State.startWork (s : State W) (w : W) (p : Work) : State W :=
  if s.works w = .idle then { s with works := update s.works w p } else s

omit [DecidableEq W] in
@[simp] theorem startLoop_db (s : State W) (runnerID : String) (p : Loop) :
    (s.startLoop runnerID p).db = s.db := by
  unfold State.startLoop
  split <;> rfl

@[simp] theorem startWork_db (s : State W) (w : W) (p : Work) : (s.startWork w p).db = s.db := by
  unfold State.startWork
  split <;> rfl

def step (s : State W) : Action W → State W
  | .tick seconds => { s with clock := s.clock + seconds }
  | .create id taskID type payload state o =>
    match s.db.tasks.insert (newTask s.clock id taskID type payload state) with
    | some tasks => { s with db := { s.db with tasks := o.after tasks s.db.tasks } }
    | none => s
  | .startClaim r id type lockUntil => s.startLoop r (.claimRead ⟨id, type, lockUntil, s.clock⟩)
  | .startSweep r => s.startLoop r (.sweepRead s.clock)
  | .loop r o =>
    let (p, db) := (s.loops r).exec r s.clock o s.db
    { s with db := db, loops := update s.loops r p }
  | .crash r => { s with loops := update s.loops r .idle }
  | .startUpdate w taskID lockedBy text => s.startWork w (.updating taskID lockedBy text s.clock)
  | .startRenew w taskID lockedBy lockUntil =>
    s.startWork w (.renewing taskID lockedBy lockUntil s.clock)
  | .startFinish w taskID lockedBy status result error =>
    s.startWork w (.finishing taskID lockedBy status result error s.clock)
  | .work w o =>
    let (p, db) := (s.works w).exec o s.db
    { s with db := db, works := update s.works w p }
  | .stop w => { s with works := update s.works w .idle }

/-! ## What a step can do to the tasks -/

/-- The tasks stay as they are, a pending task is inserted under its type, or one of the four
updates takes effect; the state or the result only changes in a handler's statement. -/
inductive TasksEffect (s : State W) (a : Action W) : Tasks → Prop
  | same : TasksEffect s a s.db.tasks
  | created (id : Int) (taskID type payload state : String) (tasks : Tasks)
      (hInsert : s.db.tasks.insert (newTask s.clock id taskID type payload state) = some tasks) :
      TasksEffect s a tasks
  | claimed (id : Int) (type runnerID : String) (now : Int) :
      TasksEffect s a (s.db.tasks.update (Task.claimable id type) (.claim runnerID now))
  | expired (taskID : String) (now : Int) :
      TasksEffect s a (s.db.tasks.update (Task.runs taskID) (.leaseExpired now))
  | state (w : W) (o : Write) (taskID lockedBy text : String) (now : Int) (hAction : a = .work w o)
      (hWriter : (s.works w).writer = some (lockedBy, now)) :
      TasksEffect s a
        (s.db.tasks.update (Task.leased s.db.locks taskID lockedBy now) (.state text now))
  | finished (w : W) (o : Write) (taskID lockedBy : String) (status : FinalStatus)
      (result error : String) (now : Int) (hAction : a = .work w o)
      (hWriter : (s.works w).writer = some (lockedBy, now)) :
      TasksEffect s a (s.db.tasks.update (Task.leased s.db.locks taskID lockedBy now)
        (.finish status result error now))

omit [DecidableEq W] in
/-- A statement that leaves the tasks alone unless it takes effect. -/
theorem TasksEffect.after {s : State W} {a : Action W} {tasks : Tasks} (h : TasksEffect s a tasks)
    (o : Write) : TasksEffect s a (o.after tasks s.db.tasks) :=
  o.after_rec h .same

omit [DecidableEq W] in
theorem tasksEffect_loop (s : State W) (a : Action W) (runnerID : String) (o : Write) (p : Loop) :
    TasksEffect s a (p.exec runnerID s.clock o s.db).2.tasks := by
  cases p with
  | claimRead c | claimInsert c taskID | claimLook c taskID =>
    unfold Loop.exec
    dsimp only
    split <;> exact .same
  | claimMark c taskID expiredTaskID =>
    exact (TasksEffect.expired expiredTaskID s.clock).after o
  | claimUpdate c taskID => exact (TasksEffect.claimed c.id c.type runnerID c.now).after o
  | sweepMark now lock rest => exact (TasksEffect.expired lock.taskID s.clock).after o
  | _ => exact .same

theorem step_tasks (s : State W) (a : Action W) : TasksEffect s a (step s a).db.tasks := by
  cases a with
  | create id taskID type payload state o =>
    unfold step
    dsimp only
    split
    · rename_i tasks hInsert
      exact (TasksEffect.created id taskID type payload state tasks hInsert).after o
    · exact .same
  | loop r o => exact tasksEffect_loop s _ r o (s.loops r)
  | work w o =>
    unfold step
    dsimp only
    cases hWork : s.works w with
    | updating taskID lockedBy text now =>
      exact (TasksEffect.state w o taskID lockedBy text now rfl (by rw [hWork]; rfl)).after o
    | finishing taskID lockedBy status result error now =>
      exact (TasksEffect.finished w o taskID lockedBy status result error now rfl
        (by rw [hWork]; rfl)).after o
    | _ => exact .same
  | startClaim r id type lockUntil | startSweep r =>
    rw [step, startLoop_db]
    exact .same
  | startUpdate w taskID lockedBy text | startRenew w taskID lockedBy lockUntil
  | startFinish w taskID lockedBy status result error =>
    rw [step, startWork_db]
    exact .same
  | _ => exact .same

/-! ## Exclusivity -/

/-- The moves of a status along `pending`, `running`, and `succeeded` or `failed`. -/
def Status.moves : Status → Status → Bool
  | .pending, .running => true
  | .running, .succeeded => true
  | .running, .failed => true
  | s, s' => s = s'

/-- No task disappears, every status moves forward only, and a new task is pending. -/
def StatusMoves (s : State W) (a : Action W) : Prop :=
  (∀ t ∈ s.db.tasks.rows, ∃ u ∈ (step s a).db.tasks.rows,
      u.id = t.id ∧ t.status.moves u.status = true) ∧
    ∀ u ∈ (step s a).db.tasks.rows,
      (∃ t ∈ s.db.tasks.rows, t.id = u.id) ∨ u.status = .pending

/-- Where the step changes the state or the result of a task, it is a statement of a handler whose
runner is the `locked_by` of the task and holds a lock on the task that has not expired at the
time with which the statement compares it. -/
def WrittenByHolder (s : State W) (a : Action W) : Prop :=
  ∀ t ∈ s.db.tasks.rows, ∀ u ∈ (step s a).db.tasks.rows, u.id = t.id →
    (u.state ≠ t.state ∨ u.result ≠ t.result) →
      ∃ w o now, a = .work w o ∧ (s.works w).writer = some (t.lockedBy, now) ∧
        ∃ l ∈ s.db.locks.rows, l.taskID = t.taskID ∧ l.lockedBy = t.lockedBy ∧ now ≤ l.lockedUntil

/-- The lock has not expired on the shared clock either when the statement is executed. -/
def WrittenInLease (s : State W) (a : Action W) : Prop :=
  ∀ t ∈ s.db.tasks.rows, ∀ u ∈ (step s a).db.tasks.rows, u.id = t.id →
    (u.state ≠ t.state ∨ u.result ≠ t.result) →
      ∃ l ∈ s.db.locks.rows, l.taskID = t.taskID ∧ l.lockedBy = t.lockedBy ∧ s.clock ≤ l.lockedUntil

instance (s : State W) (a : Action W) : Decidable (WrittenInLease s a) := by
  unfold WrittenInLease
  infer_instance

/-- The active tasks of the type were created through `CreateSystemTask`. -/
def Keyed (type : String) (ts : Tasks) : Prop :=
  ∀ t ∈ ts.rows, t.type = type → t.status.isActive = true → t.activeKey = some type

theorem moves_refl (s : Status) : s.moves s = true := by
  cases s <;> rfl

variable {ts : Tasks} {p : Task → Bool}

theorem statusMoves_update {c : Change}
    (hc : ∀ t, p t = true → t.status.moves (c.set t).status = true) :
    (∀ t ∈ ts.rows, ∃ u ∈ (ts.update p c).rows, u.id = t.id ∧ t.status.moves u.status = true) ∧
      ∀ u ∈ (ts.update p c).rows, (∃ t ∈ ts.rows, t.id = u.id) ∨ u.status = .pending := by
  constructor
  · intro t ht
    refine ⟨c.onRow p t, mem_update.mpr ⟨t, ht, rfl⟩, c.onRow_id p t, ?_⟩
    rcases c.onRow_cases p t with ⟨hp, hRow⟩ | ⟨-, hRow⟩
    · rw [hRow]
      exact hc t hp
    · rw [hRow]
      exact moves_refl t.status
  · intro u hu
    obtain ⟨t, ht, rfl⟩ := mem_update.mp hu
    exact Or.inl ⟨t, ht, (c.onRow_id p t).symm⟩

variable {type : String} {t : Task}

theorem claimable_iff {id : Int} :
    t.claimable id type = true ↔ t.id = id ∧ t.type = type ∧ t.status = .pending := by
  simp [Task.claimable, and_assoc]

theorem runs_iff {taskID : String} :
    t.runs taskID = true ↔ t.taskID = taskID ∧ t.status = .running := by
  simp [Task.runs]

theorem leased_iff {locks : Table Lock.type} {taskID lockedBy : String} {now : Int} :
    t.leased locks taskID lockedBy now = true ↔
      t.taskID = taskID ∧ t.status = .running ∧ t.lockedBy = lockedBy ∧
        ∃ l ∈ locks.rows, l.taskID = t.taskID ∧ l.lockedBy = lockedBy ∧ now ≤ l.lockedUntil := by
  simp [Task.leased, and_assoc]

theorem moves_final {s : Status} (h : s.isActive = false) : Status.running.moves s = true := by
  cases s with
  | pending => cases h
  | running => cases h
  | succeeded => rfl
  | failed => rfl

theorem statusMoves (s : State W) (a : Action W) : StatusMoves s a := by
  have hEffect := step_tasks s a
  unfold StatusMoves
  generalize (step s a).db.tasks = ts at hEffect ⊢
  cases hEffect with
  | same =>
    exact ⟨fun t ht => ⟨t, ht, rfl, moves_refl t.status⟩, fun u hu => Or.inl ⟨u, hu, rfl⟩⟩
  | created id taskID type payload state tasks hInsert =>
    obtain ⟨hRows, -⟩ := insert_eq_some hInsert
    rw [hRows]
    constructor
    · intro t ht
      exact ⟨t, mem_append_left _ ht, rfl, moves_refl t.status⟩
    · intro u hu
      rcases mem_append.mp hu with hOld | hNew
      · exact Or.inl ⟨u, hOld, rfl⟩
      · right
        rw [mem_singleton.mp hNew]
        rfl
  | claimed id type runnerID now =>
    apply statusMoves_update
    intro t ht
    rw [(claimable_iff.mp ht).2.2]
    rfl
  | expired taskID now =>
    apply statusMoves_update
    intro t ht
    rw [(runs_iff.mp ht).2]
    rfl
  | state w o taskID lockedBy text now hAction hWriter =>
    apply statusMoves_update
    intro t _
    exact moves_refl t.status
  | finished w o taskID lockedBy status result error now hAction hWriter =>
    apply statusMoves_update
    intro t ht
    rw [(leased_iff.mp ht).2.1]
    exact moves_final status.2

theorem contents_update {c : Change}
    (hc : ∀ t, (c.set t).state = t.state ∧ (c.set t).result = t.result) {u : Task}
    (ht : t ∈ ts.rows) (hu : u ∈ (ts.update p c).rows) (hId : u.id = t.id) :
    u.state = t.state ∧ u.result = t.result := by
  rcases mem_update_cases.mp hu with ⟨v, hv, -, rfl⟩ | ⟨hu, -⟩
  · rw [eq_of_key (t := ts.toTable) ht hv (hId.symm.trans (c.id v))]
    exact hc v
  · rw [eq_of_key (t := ts.toTable) hu ht hId]
    exact ⟨rfl, rfl⟩

theorem met_of_update_ne {c : Change} {u : Task} (ht : t ∈ ts.rows)
    (hu : u ∈ (ts.update p c).rows) (hId : u.id = t.id) (hne : u ≠ t) : p t = true := by
  rcases mem_update_cases.mp hu with ⟨v, hv, hp, rfl⟩ | ⟨hu, -⟩
  · rwa [eq_of_key (t := ts.toTable) ht hv (hId.symm.trans (c.id v))]
  · exact absurd (eq_of_key (t := ts.toTable) hu ht hId) hne

theorem ne_of_contents {u : Task} (h : u.state ≠ t.state ∨ u.result ≠ t.result) : u ≠ t := by
  rintro rfl
  rcases h with h | h <;> exact h rfl

theorem writtenByHolder (s : State W) (a : Action W) : WrittenByHolder s a := by
  have hEffect := step_tasks s a
  intro t ht
  generalize (step s a).db.tasks = ts at hEffect ⊢
  cases hEffect with
  | same =>
    intro u hu hId hChanged
    exact absurd (eq_of_key (t := s.db.tasks.toTable) hu ht hId) (ne_of_contents hChanged)
  | created id taskID type payload state tasks hInsert =>
    intro u hu hId hChanged
    obtain ⟨hRows, hFresh, -⟩ := insert_eq_some hInsert
    rw [hRows] at hu
    rcases mem_append.mp hu with hOld | hNew
    · exact absurd (eq_of_key (t := s.db.tasks.toTable) hOld ht hId) (ne_of_contents hChanged)
    · rw [mem_singleton.mp hNew] at hId
      exact absurd hId.symm (hFresh t ht)
  | claimed id type runnerID now | expired taskID now =>
    intro u hu hId hChanged
    obtain ⟨hState, hResult⟩ := contents_update (fun _ => ⟨rfl, rfl⟩) ht hu hId
    rcases hChanged with h | h
    · exact absurd hState h
    · exact absurd hResult h
  | state w o taskID lockedBy text now hAction hWriter
  | finished w o taskID lockedBy status result error now hAction hWriter =>
    intro u hu hId hChanged
    obtain ⟨-, -, rfl, hLock⟩ := leased_iff.mp
      (met_of_update_ne ht hu hId (ne_of_contents hChanged))
    exact ⟨w, o, now, hAction, hWriter, hLock⟩

/-- An update after which a row is active only if it was, and then with its active key. -/
theorem Keyed.update (h : Keyed type ts) {c : Change} (hc : ∀ t, p t = true → (c.set
      t).status.isActive = true → t.status.isActive = true ∧ (c.set t).activeKey = t.activeKey) :
    Keyed type (ts.update p c) := by
  intro u hu hType hActive
  rcases mem_update_cases.mp hu with ⟨t, ht, hp, rfl⟩ | ⟨hu, -⟩
  · obtain ⟨hWas, hKey⟩ := hc t hp hActive
    rw [hKey]
    exact h t ht ((c.type t).symm.trans hType) hWas
  · exact h u hu hType hActive

theorem step_keyed (type : String) (s : State W) (a : Action W) (h : Keyed type s.db.tasks) :
    Keyed type (step s a).db.tasks := by
  have hEffect := step_tasks s a
  generalize (step s a).db.tasks = ts at hEffect ⊢
  cases hEffect with
  | same => exact h
  | created id taskID type' payload state tasks hInsert =>
    obtain ⟨hRows, -⟩ := insert_eq_some hInsert
    intro t ht hType hActive
    rw [hRows] at ht
    rcases mem_append.mp ht with hOld | hNew
    · exact h t hOld hType hActive
    · rw [mem_singleton.mp hNew] at hType ⊢
      exact congrArg some hType
  | claimed id type' runnerID now =>
    apply h.update
    intro t ht _
    rw [(claimable_iff.mp ht).2.2]
    exact ⟨rfl, rfl⟩
  | expired taskID now =>
    apply h.update
    intro t _ hActive
    cases hActive
  | state w o taskID lockedBy text now hAction hWriter =>
    apply h.update
    intro t _ hActive
    exact ⟨hActive, rfl⟩
  | finished w o taskID lockedBy status result error now hAction hWriter =>
    apply h.update
    intro t _ hActive
    exact absurd (hActive.symm.trans status.2) Bool.true_eq_false_eq_False

theorem Keyed.eq (h : Keyed type ts) {u : Task} (ht : t ∈ ts.rows) (hu : u ∈ ts.rows)
    (htType : t.type = type) (huType : u.type = type) (htActive : t.status.isActive = true)
    (huActive : u.status.isActive = true) : t = u :=
  ts.activeKeys.eq ht hu (h t ht htType htActive) (h u hu huType huActive)

theorem Keyed.length_le_one (h : Keyed type ts) :
    (ts.rows.filter fun t => t.type = type && t.status.isActive).length ≤ 1 := by
  apply length_filter_le_one (List.Nodup.of_map _ ts.nodup)
  intro t ht u hu htActive huActive
  simp only [Bool.and_eq_true, decide_eq_true_eq] at htActive huActive
  exact h.eq ht hu htActive.1 huActive.1 htActive.2 huActive.2

/-- Whatever the runners do, in whatever order their statements are executed: at most one task of
a type is pending or running, at most one lock of the type exists, a task only moves from pending
to running to succeeded or failed, and its state and its result are only written for the runner
that it is locked by and that holds a lock on it which had not expired when the call read the
clock. -/
theorem exclusive_of_keyed {type : String} {s : State W} (hs : Keyed type s.db.tasks)
    (l : List (Action W)) :
    ((run step s l).db.tasks.rows.filter fun t => t.type = type && t.status.isActive).length ≤ 1 ∧
      ((run step s l).db.locks.rows.filter fun k => k.type = type).length ≤ 1 ∧
      Guarded step StatusMoves s l ∧ Guarded step WrittenByHolder s l := by
  have hKeyed : Keyed type (run step s l).db.tasks :=
    run_invariant (I := fun s => Keyed type s.db.tasks) (fun s a => step_keyed type s a) hs l
  exact ⟨hKeyed.length_le_one, (run step s l).db.locks.length_filter_key_le_one type,
    guarded_of_forall statusMoves s l, guarded_of_forall writtenByHolder s l⟩

theorem mem_step_of_ended (s : State W) (a : Action W) (ht : t ∈ s.db.tasks.rows)
    (hEnded : t.status.isActive = false) : t ∈ (step s a).db.tasks.rows := by
  have hPending : t.status ≠ .pending := fun h => by rw [h] at hEnded; cases hEnded
  have hRunning : t.status ≠ .running := fun h => by rw [h] at hEnded; cases hEnded
  have hEffect := step_tasks s a
  generalize (step s a).db.tasks = ts at hEffect ⊢
  cases hEffect with
  | same => exact ht
  | created id taskID type payload state tasks hInsert =>
    rw [(insert_eq_some hInsert).1]
    exact mem_append_left _ ht
  | _ =>
    -- each of the updates asks for a task that is pending or running
    refine mem_update_cases.mpr (Or.inr ⟨ht, ?_⟩)
    simp [Task.claimable, Task.runs, Task.leased, hPending, hRunning]

/-- Whatever the runners do, a task that has succeeded or failed is not written again. -/
theorem ended_tasks_stay (s : State W) (l : List (Action W)) :
    (s.db.tasks.rows.filter fun t => !t.status.isActive) ⊆ (run step s l).db.tasks.rows := by
  intro t ht
  obtain ⟨ht, hEnded⟩ := mem_filter.mp ht
  exact run_invariant (I := fun s => t ∈ s.db.tasks.rows)
    (fun s a h => mem_step_of_ended s a h (by simpa using hEnded)) ht l

end

def State.empty {W : Type*} : State W where
  db := ⟨⟨Table.empty, .nil, .nil⟩, Table.empty⟩
  clock := 100
  loops _ := .idle
  works _ := .idle

theorem keyed_empty {W : Type*} (type : String) : Keyed type (State.empty (W := W)).db.tasks := by
  intro t ht
  cases ht

def twoClaims : List (Action Unit) :=
  [.create 1 "systask_1" "log_cleanup" "" "" .ok,
    .create 2 "systask_2" "log_cleanup" "" "" .ok,
    .startClaim "a" 1 "log_cleanup" 160, .startClaim "b" 1 "log_cleanup" 160,
    .loop "a" .ok, .loop "b" .ok, .loop "a" .ok, .loop "b" .ok, .loop "b" .ok, .loop "a" .ok,
    .loop "a" .ok, .startUpdate () "systask_1" "a" "half", .work () .ok, .tick 10,
    .startFinish () "systask_1" "a" .succeeded "done" "", .work () .ok, .work () .ok]

theorem exclusive_of_keyed_twoClaims :
    (run step State.empty twoClaims).db.tasks.rows.map
    (fun t => (t.taskID, t.status, t.state, t.result)) =
        [("systask_1", .succeeded, "half", "done")] ∧
      ((run step State.empty twoClaims).db.tasks.rows.filter fun t =>
        t.type = "log_cleanup" && t.status.isActive).length ≤ 1 ∧
      Guarded step WrittenByHolder State.empty twoClaims := by
  have h := exclusive_of_keyed (keyed_empty "log_cleanup") twoClaims
  exact ⟨by decide, h.1, h.2.2.2⟩

/-- A call to write the state reads the clock at 100, under a lease until 160, and its statement is
executed a thousand seconds later. -/
def stalledUpdate : List (Action Unit) :=
  [.create 1 "systask_1" "log_cleanup" "" "" .ok, .startClaim "a" 1 "log_cleanup" 160,
    .loop "a" .ok, .loop "a" .ok, .loop "a" .ok, .startUpdate () "systask_1" "a" "half",
    .tick 1000, .work () .ok]

theorem stalledUpdate_written_after_lease :
    Keyed "log_cleanup" (State.empty (W := Unit)).db.tasks ∧
      ¬ Guarded step WrittenInLease State.empty stalledUpdate :=
  ⟨keyed_empty "log_cleanup", by decide⟩

end Qapi.SystemTask
