import Qapi.SystemTask.Runner

/-!
# Running tasks and their locks

A running task without the lock of its type is never failed by the sweep, which only looks
at locks, and its active key blocks every later task of the type. A claim that stalls past
its own lease can leave such a task: once the sweep has deleted the lock, or another runner
has taken it over, the update of the task still finds it pending. `Timely` says that this
does not happen: the update takes effect before the lease ends, and its answer is not lost.

Under it every running task keeps its lock. What carries the argument is how long the lock
lasts: a runner that may still take over or delete the lock of a type has read its clock
before the task became running, so the lock outlives that reading.
-/

namespace Qapi.SystemTask

open Qapi.Core List Function Table Tasks
open Async (Write)

/-- Every running task has the lock of its type, for itself and for its runner. -/
def Held (db : Db) : Prop :=
  ∀ t ∈ db.tasks.rows, t.status = .running →
    ∃ l ∈ db.locks.rows, l.type = t.type ∧ l.taskID = t.taskID ∧ l.lockedBy = t.lockedBy

section

variable {W : Type*}

/-- The update of a claim that makes its task running is executed before the lease ends, and its
answer arrives. -/
def LoopTimely (s : State W) (o : Write) : Loop → Prop
  | .claimUpdate c _ =>
    s.db.tasks.rows.any (Task.claimable c.id c.type) = true → o.tookEffect = true →
      s.clock ≤ c.lockUntil ∧ o.isLost = false
  | _ => True

/-- A claim makes its task running only before its lease ends; a lock is renewed only for a task
that has been claimed, and until a time that has not passed. -/
def Timely (s : State W) : Action W → Prop
  | .loop r o => LoopTimely s o (s.loops r)
  | .startRenew _ taskID _ lockUntil =>
    s.clock ≤ lockUntil ∧ ∃ t ∈ s.db.tasks.rows, t.taskID = taskID ∧ t.status ≠ .pending
  | _ => True

/-! ## What the calls rely on -/

/-- The lock of the type, and every renewal of the task's lock under way, last beyond the time. -/
def Outlives (s : State W) (type taskID : String) (now : Int) : Prop :=
  (∀ l ∈ s.db.locks.rows, l.type = type → now ≤ l.lockedUntil) ∧
    ∀ w lockedBy lockUntil time, s.works w = .renewing taskID lockedBy lockUntil time →
      now ≤ lockUntil

/-- The claim is about a stored task, and the runner has not made that task running. -/
def Claims (s : State W) (r : String) (c : Claim) (taskID : String) : Prop :=
  (∃ t ∈ s.db.tasks.rows, t.id = c.id ∧ t.type = c.type ∧ t.taskID = taskID) ∧
    ∀ t ∈ s.db.tasks.rows, t.taskID = taskID → t.status = .running → t.lockedBy ≠ r

/-- A task of the type that is running was made so after the claim read its clock. -/
def Watches (s : State W) (c : Claim) : Prop :=
  ∀ t ∈ s.db.tasks.rows, t.status = .running → t.type = c.type → Outlives s t.type t.taskID c.now

/-- While the task is pending, the claim has its lock, or its lease has ended. -/
def Owns (s : State W) (r : String) (c : Claim) (taskID : String) : Prop :=
  ∀ t ∈ s.db.tasks.rows, t.taskID = taskID → t.status = .pending →
    c.lockUntil < s.clock ∨ ∃ l ∈ s.db.locks.rows, l.type = c.type ∧ l.taskID = taskID ∧
      l.lockedBy = r ∧ c.lockUntil ≤ l.lockedUntil

/-- The task of a lock that the sweep is about to delete is not running, or was made so after the
sweep read its clock. -/
def Spares (s : State W) (now : Int) (lock : Lock) : Prop :=
  ∀ t ∈ s.db.tasks.rows, t.status = .running → t.taskID = lock.taskID →
    Outlives s t.type t.taskID now

/-- What a runner relies on, by the statement that comes next. -/
def LoopSafe (s : State W) (r : String) : Loop → Prop
  | .idle => True
  | .claimRead c => c.now ≤ s.clock
  | .claimInsert c x => c.now ≤ s.clock ∧ Claims s r c x ∧ Watches s c
  | .claimLook c x => c.now ≤ s.clock ∧ Claims s r c x ∧ Watches s c
  | .claimTake c x _ => c.now ≤ s.clock ∧ Claims s r c x ∧ Watches s c
  | .claimMark c x _ => Claims s r c x ∧ Owns s r c x
  | .claimUpdate c x => Claims s r c x ∧ Owns s r c x
  | .claimRelease c x => Claims s r c x
  | .claimReload _ => True
  | .sweepRead now => now ≤ s.clock
  | .sweepMark now _ _ => now ≤ s.clock
  | .sweepDelete now lock _ => now ≤ s.clock ∧ Spares s now lock

def WorkSafe (s : State W) : Work → Prop
  | .renewing taskID _ _ _ => ∃ t ∈ s.db.tasks.rows, t.taskID = taskID ∧ t.status ≠ .pending
  | .releasing taskID _ => ∃ t ∈ s.db.tasks.rows, t.taskID = taskID ∧ t.status.isActive = false
  | _ => True

structure Safe (s : State W) : Prop where
  held : Held s.db
  loops : ∀ r, LoopSafe s r (s.loops r)
  works : ∀ w, WorkSafe s (s.works w)

/-! ## Transport -/

/-- The loop has the lock for the claim and has not used it yet. -/
def Loop.owns : Loop → Claim → String → Prop
  | .claimMark c x _, c', x' => c = c' ∧ x = x'
  | .claimUpdate c x, c', x' => c = c' ∧ x = x'
  | _, _, _ => False

/-- What has to survive a step for everything that a loop relies on to survive it. A task that the
step makes running has a lock that outlives every reading of the clock so far. -/
structure Survives (s s' : State W) (r : String) (p : Loop) : Prop where
  clock : s.clock ≤ s'.clock
  claims : ∀ c x, Claims s r c x → Claims s' r c x
  outlives : ∀ t' ∈ s'.db.tasks.rows, t'.status = .running → ∀ now, now ≤ s.clock →
    Outlives s' t'.type t'.taskID now ∨ ∃ t ∈ s.db.tasks.rows, t.status = .running ∧
      t.type = t'.type ∧ t.taskID = t'.taskID ∧
      (Outlives s t.type t.taskID now → Outlives s' t'.type t'.taskID now)
  owns : ∀ c x, p.owns c x → Claims s r c x → Owns s r c x → Owns s' r c x

variable {s s' : State W} {r : String} {p : Loop}

variable {c : Claim}

theorem Survives.watches (h : Survives s s' r p) (hNow : c.now ≤ s.clock)
    (hWatches : Watches s c) : Watches s' c := by
  intro t' ht' hRunning hType
  rcases h.outlives t' ht' hRunning c.now hNow with hNew | ⟨t, ht, hr, hty, -, hKeeps⟩
  · exact hNew
  · exact hKeeps (hWatches t ht hr (hty.trans hType))

variable {now : Int}

theorem Survives.spares (h : Survives s s' r p) {lock : Lock} (hNow : now ≤ s.clock)
    (hSpares : Spares s now lock) : Spares s' now lock := by
  intro t' ht' hRunning hTask
  rcases h.outlives t' ht' hRunning now hNow with hNew | ⟨t, ht, hr, -, hid, hKeeps⟩
  · exact hNew
  · exact hKeeps (hSpares t ht hr (hid.trans hTask))

theorem LoopSafe.transport (h : Survives s s' r p) (hp : LoopSafe s r p) :
    LoopSafe s' r p := by
  cases p with
  | idle => trivial
  | claimReload c => trivial
  | claimRead c | sweepRead now | sweepMark now lock rest => exact le_trans hp h.clock
  | claimInsert c x | claimLook c x | claimTake c x expired =>
    obtain ⟨hNow, hClaims, hWatches⟩ := hp
    exact ⟨le_trans hNow h.clock, h.claims c x hClaims, h.watches hNow hWatches⟩
  | claimMark c x expired | claimUpdate c x =>
    obtain ⟨hClaims, hOwns⟩ := hp
    exact ⟨h.claims c x hClaims, h.owns c x ⟨rfl, rfl⟩ hClaims hOwns⟩
  | claimRelease c x => exact h.claims c x hp
  | sweepDelete now lock rest =>
    obtain ⟨hNow, hSpares⟩ := hp
    exact ⟨le_trans hNow h.clock, h.spares hNow hSpares⟩

theorem Survives.of_eq (hClock : s.clock ≤ s'.clock) (hDb : s'.db = s.db)
    (hWorks : s'.works = s.works) (r : String) (p : Loop) : Survives s s' r p where
  clock := hClock
  claims c x h := by
    unfold Claims at h ⊢
    rwa [hDb]
  outlives t' ht' hRunning now _ := by
    rw [hDb] at ht'
    refine Or.inr ⟨t', ht', hRunning, rfl, rfl, ?_⟩
    intro h
    unfold Outlives at h ⊢
    rwa [hDb, hWorks]
  owns c x _ _ h := by
    intro t ht hTask hPending
    rw [hDb] at ht ⊢
    rcases h t ht hTask hPending with hEnded | hLock
    · exact Or.inl (lt_of_lt_of_le hEnded hClock)
    · exact Or.inr hLock

theorem WorkSafe.of_tasks (hTasks : s'.db.tasks = s.db.tasks) {p : Work} (h : WorkSafe s p) :
    WorkSafe s' p := by
  cases p with
  | renewing taskID lockedBy lockUntil now | releasing taskID lockedBy =>
    unfold WorkSafe at h ⊢
    rwa [hTasks]
  | _ => trivial

theorem Safe.tick (h : Safe s) (seconds : Nat) : Safe { s with clock := s.clock + seconds } where
  held := h.held
  loops r := by
    have hClock : s.clock ≤ s.clock + seconds := by omega
    refine (h.loops r).transport ?_
    apply Survives.of_eq
    · exact hClock
    · rfl
    · rfl
  works w := (h.works w).of_tasks rfl

theorem Safe.setLoop (h : Safe s) (r : String) {p : Loop} (hp : LoopSafe s r p) :
    Safe { s with loops := update s.loops r p } where
  held := h.held
  loops r' := by
    have hMoves : ∀ q, LoopSafe s r' q →
        LoopSafe { s with loops := update s.loops r p } r' q := by
      intro q hq
      apply hq.transport
      apply Survives.of_eq
      · exact le_refl s.clock
      · rfl
      · rfl
    by_cases hr : r' = r
    · subst hr
      dsimp only
      rw [update_self]
      exact hMoves p hp
    · dsimp only
      rw [update_of_ne hr]
      exact hMoves _ (h.loops r')
  works w := (h.works w).of_tasks rfl

/-- A handler goes on; if it renews, then until a time that has not passed. -/
theorem Safe.setWork [DecidableEq W] (h : Safe s) (w : W) {p : Work} (hp : WorkSafe s p)
    (hRenew : ∀ taskID lockedBy lockUntil now, p = .renewing taskID lockedBy lockUntil now →
      s.clock ≤ lockUntil) :
    Safe { s with works := update s.works w p } where
  held := h.held
  loops r := by
    refine (h.loops r).transport ?_
    refine ⟨le_refl s.clock, fun c x h => h, ?_, fun c x _ _ h => h⟩
    intro t ht hRunning now hNow
    refine Or.inr ⟨t, ht, hRunning, rfl, rfl, ?_⟩
    rintro ⟨hLocks, hRenewals⟩
    refine ⟨hLocks, ?_⟩
    intro w' lockedBy lockUntil time hw'
    by_cases hw : w' = w
    · subst hw
      dsimp only at hw'
      rw [update_self] at hw'
      exact le_trans hNow (hRenew t.taskID lockedBy lockUntil time hw')
    · dsimp only at hw'
      rw [update_of_ne hw] at hw'
      exact hRenewals w' lockedBy lockUntil time hw'
  works w' := by
    by_cases hw : w' = w
    · subst hw
      dsimp only
      rw [update_self]
      exact hp.of_tasks rfl
    · dsimp only
      rw [update_of_ne hw]
      exact (h.works w').of_tasks rfl

/-! ## The tasks -/

/-- A change of the tasks that makes none of them running: a row keeps its status and its runner,
or is no longer active, or is new and pending. -/
structure Calm (ts ts' : Tasks) : Prop where
  back : ∀ t' ∈ ts'.rows, t'.status.isActive = false ∨
    (∃ t ∈ ts.rows, t.status = t'.status ∧ t.type = t'.type ∧ t.taskID = t'.taskID ∧
      t.lockedBy = t'.lockedBy) ∨
    (t'.status = .pending ∧ ∀ t ∈ ts.rows, t.taskID ≠ t'.taskID)
  forth : ∀ t ∈ ts.rows, ∃ t' ∈ ts'.rows, t'.id = t.id ∧ t'.type = t.type ∧ t'.taskID = t.taskID ∧
    (t'.status = t.status ∨ t'.status.isActive = false)

variable {ts : Tasks}

theorem Calm.update {p : Task → Bool} {c : Change} (hc : ∀ t, p t = true → ((c.set t).status =
      t.status ∧ (c.set t).lockedBy = t.lockedBy) ∨ (c.set t).status.isActive = false) :
    Calm ts (ts.update p c) where
  back t' ht' := by
    rcases mem_update_cases.mp ht' with ⟨t, ht, hp, rfl⟩ | ⟨ht, -⟩
    · rcases hc t hp with ⟨hStatus, hLocked⟩ | hDone
      · exact Or.inr (Or.inl ⟨t, ht, hStatus.symm, (c.type t).symm, (c.taskID t).symm,
          hLocked.symm⟩)
      · exact Or.inl hDone
    · exact Or.inr (Or.inl ⟨t', ht, rfl, rfl, rfl, rfl⟩)
  forth t ht := by
    refine ⟨c.onRow p t, mem_update.mpr ⟨t, ht, rfl⟩, c.onRow_id p t, c.onRow_type p t,
      c.onRow_taskID p t, ?_⟩
    rcases c.onRow_cases p t with ⟨hp, hRow⟩ | ⟨-, hRow⟩
    · rw [hRow]
      rcases hc t hp with ⟨hStatus, -⟩ | hDone
      · exact Or.inl hStatus
      · exact Or.inr hDone
    · rw [hRow]
      exact Or.inl rfl

theorem Calm.refl (ts : Tasks) : Calm ts ts where
  back t ht := Or.inr (Or.inl ⟨t, ht, rfl, rfl, rfl, rfl⟩)
  forth t ht := ⟨t, ht, rfl, rfl, rfl, Or.inl rfl⟩

variable {ts' : Tasks}

theorem Calm.after (h : Calm ts ts') (o : Write) : Calm ts (o.after ts' ts) :=
  o.after_rec h (.refl ts)

variable {t : Task}

theorem Calm.insert (h : ts.insert t = some ts') (ht : t.status = .pending) : Calm ts ts' where
  back u hu := by
    obtain ⟨hRows, -, hFresh, -⟩ := insert_eq_some h
    rw [hRows] at hu
    rcases mem_append.mp hu with hOld | hNew
    · exact Or.inr (Or.inl ⟨u, hOld, rfl, rfl, rfl, rfl⟩)
    · rw [mem_singleton.mp hNew]
      exact Or.inr (Or.inr ⟨ht, hFresh⟩)
  forth u hu := by
    obtain ⟨hRows, -⟩ := insert_eq_some h
    rw [hRows]
    exact ⟨u, mem_append_left _ hu, rfl, rfl, rfl, Or.inl rfl⟩

theorem Calm.running (h : Calm ts ts') {t' : Task} (ht' : t' ∈ ts'.rows)
    (hRunning : t'.status = .running) : ∃ t ∈ ts.rows, t.status = .running ∧ t.type = t'.type ∧
      t.taskID = t'.taskID ∧ t.lockedBy = t'.lockedBy := by
  rcases h.back t' ht' with hDone | ⟨t, ht, hStatus, hSame⟩ | ⟨hPending, -⟩
  · rw [hRunning] at hDone
    cases hDone
  · exact ⟨t, ht, hStatus.trans hRunning, hSame⟩
  · rw [hRunning] at hPending
    cases hPending

variable {taskID : String}

/-- What is known of the status of a task stays known if it holds of every task that is over. -/
theorem Calm.status (h : Calm ts ts') {P : Status → Prop}
    (hOver : ∀ status : Status, status.isActive = false → P status)
    (hKnown : ∃ t ∈ ts.rows, t.taskID = taskID ∧ P t.status) :
    ∃ t ∈ ts'.rows, t.taskID = taskID ∧ P t.status := by
  obtain ⟨t, ht, hTask, hStatus⟩ := hKnown
  obtain ⟨t', ht', -, -, hTask', hStatus'⟩ := h.forth t ht
  refine ⟨t', ht', hTask'.trans hTask, ?_⟩
  rcases hStatus' with hSame | hDone
  · rwa [hSame]
  · exact hOver _ hDone

theorem Safe.calm (h : Safe s) (hCalm : Calm s.db.tasks ts) :
    Safe { s with db := { s.db with tasks := ts } } where
  held t' ht' hRunning := by
    obtain ⟨t, ht, hr, hty, hid, hby⟩ := hCalm.running ht' hRunning
    have hLock := h.held t ht hr
    rwa [hty, hid, hby] at hLock
  loops r := by
    refine (h.loops r).transport ?_
    refine ⟨le_refl s.clock, ?_, ?_, ?_⟩
    · rintro c x ⟨⟨t, ht, hId, hType, hTask⟩, hOther⟩
      constructor
      · obtain ⟨t', ht', hId', hType', hTask', -⟩ := hCalm.forth t ht
        exact ⟨t', ht', hId'.trans hId, hType'.trans hType, hTask'.trans hTask⟩
      · intro t' ht' hTask' hRunning
        obtain ⟨u, hu, hr, -, hid, hby⟩ := hCalm.running ht' hRunning
        rw [← hby]
        exact hOther u hu (hid.trans hTask') hr
    · intro t' ht' hRunning now _
      obtain ⟨t, ht, hr, hty, hid, -⟩ := hCalm.running ht' hRunning
      refine Or.inr ⟨t, ht, hr, hty, hid, ?_⟩
      intro hOutlives
      rwa [hty, hid] at hOutlives
    · rintro c x - ⟨⟨u, hu, -, -, huTask⟩, -⟩ hOwns t' ht' hTask hPending
      rcases hCalm.back t' ht' with hDone | ⟨t, ht, hStatus, -, hid, -⟩ | ⟨-, hFresh⟩
      · rw [hPending] at hDone
        cases hDone
      · exact hOwns t ht (hid.trans hTask) (hStatus.trans hPending)
      · exact absurd (huTask.trans hTask.symm) (hFresh u hu)
  works w := by
    have hw := h.works w
    cases hWork : s.works w with
    | renewing taskID lockedBy lockUntil now =>
      rw [hWork] at hw
      have hOver : ∀ status : Status, status.isActive = false → status ≠ .pending := by
        rintro status hDone rfl
        cases hDone
      exact hCalm.status (P := fun status => status ≠ .pending) hOver hw
    | releasing taskID lockedBy =>
      rw [hWork] at hw
      exact hCalm.status (P := fun status => status.isActive = false) (fun _ hDone => hDone) hw
    | _ => trivial

variable {r type : String}

/-- The statement with which a claim takes its task over, while the lock of the claim is in place
and has not expired. The loop of the runner no longer relies on anything. -/
theorem Safe.claim (h : Safe s) (hIdle : s.loops r = .claimReload c) {id : Int}
    (hLock : ∀ t ∈ s.db.tasks.rows, t.claimable id type = true → ∃ l ∈ s.db.locks.rows, l.type =
      t.type ∧ l.taskID = t.taskID ∧ l.lockedBy = r ∧ s.clock ≤ l.lockedUntil) : Safe { s with db :=
      { s.db with tasks := s.db.tasks.update (Task.claimable id type) (.claim r now) } } where
  held t' ht' hRunning := by
    rcases mem_update_cases.mp ht' with ⟨t, ht, hp, rfl⟩ | ⟨ht, -⟩
    · obtain ⟨l, hl, hType, hTask, hBy, -⟩ := hLock t ht hp
      exact ⟨l, hl, hType, hTask, hBy⟩
    · exact h.held t' ht hRunning
  loops r' := by
    by_cases hr : r' = r
    · subst hr
      rw [hIdle]
      trivial
    refine (h.loops r').transport ?_
    refine ⟨le_refl s.clock, ?_, ?_, ?_⟩
    · rintro c x ⟨⟨t, ht, hId, hType, hTask⟩, hOther⟩
      constructor
      · refine ⟨_, mem_update.mpr ⟨t, ht, rfl⟩, ?_, ?_, ?_⟩
        · rw [Change.onRow_id, hId]
        · rw [Change.onRow_type, hType]
        · rw [Change.onRow_taskID, hTask]
      · intro t' ht' hTask' hRunning
        rcases mem_update_cases.mp ht' with ⟨u, -, -, rfl⟩ | ⟨hu, -⟩
        · exact Ne.symm hr
        · exact hOther t' hu hTask' hRunning
    · intro t' ht' hRunning time hTime
      rcases mem_update_cases.mp ht' with ⟨t, ht, hp, rfl⟩ | ⟨ht, -⟩
      · left
        obtain ⟨l, hl, hType, -, -, hUntil⟩ := hLock t ht hp
        constructor
        · intro l' hl' hType'
          obtain rfl : l' = l := eq_of_key (t := s.db.locks) hl' hl (hType'.trans hType.symm)
          exact le_trans hTime hUntil
        · -- nobody renews the lock of a pending task
          intro w lockedBy lockUntil time' hw
          have hWork := h.works w
          rw [hw] at hWork
          obtain ⟨u, hu, huTask, huStatus⟩ := hWork
          rw [s.db.tasks.eq_of_taskID hu ht huTask] at huStatus
          exact absurd (claimable_iff.mp hp).2.2 huStatus
      · exact Or.inr ⟨t', ht, hRunning, rfl, rfl, fun hOutlives => hOutlives⟩
    · intro c x _ _ hOwns t' ht' hTask hPending
      rcases mem_update_cases.mp ht' with ⟨t, -, -, rfl⟩ | ⟨ht, -⟩
      · cases hPending
      · exact hOwns t' ht hTask hPending
  works w := by
    have hw := h.works w
    have hMoves : ∀ t ∈ s.db.tasks.rows, t.status ≠ .pending →
        t ∈ (s.db.tasks.update (Task.claimable id type) (.claim r now)).rows := by
      intro t ht hStatus
      refine mem_update_cases.mpr (Or.inr ⟨ht, ?_⟩)
      rw [Bool.eq_false_iff]
      intro hp
      exact hStatus (claimable_iff.mp hp).2.2
    cases hWork : s.works w with
    | renewing taskID lockedBy lockUntil time =>
      rw [hWork] at hw
      obtain ⟨t, ht, hTask, hStatus⟩ := hw
      exact ⟨t, hMoves t ht hStatus, hTask, hStatus⟩
    | releasing taskID lockedBy =>
      rw [hWork] at hw
      obtain ⟨t, ht, hTask, hStatus⟩ := hw
      refine ⟨t, hMoves t ht ?_, hTask, hStatus⟩
      intro hPending
      rw [hPending] at hStatus
      cases hStatus
    | _ => trivial

/-! ## The locks -/

/-- A change of the locks that takes no lock from a running task, shortens none below a time that
somebody relies on, and takes no lock from a claim under way before its lease ends. -/
structure Harmless (s : State W) (locks : Table Lock.type) : Prop where
  kept : ∀ t ∈ s.db.tasks.rows, t.status = .running → ∀ l ∈ s.db.locks.rows, l.type = t.type →
    l.taskID = t.taskID → l.lockedBy = t.lockedBy →
    ∃ l' ∈ locks.rows, l'.type = t.type ∧ l'.taskID = t.taskID ∧ l'.lockedBy = t.lockedBy
  outlives : ∀ t ∈ s.db.tasks.rows, t.status = .running → ∀ now,
    Outlives s t.type t.taskID now → ∀ l' ∈ locks.rows, l'.type = t.type → now ≤ l'.lockedUntil
  owned : ∀ r c x, (s.loops r).owns c x → ∀ t ∈ s.db.tasks.rows, t.taskID = x →
    t.status = .pending → ∀ l ∈ s.db.locks.rows, l.type = c.type → l.taskID = x →
      l.lockedBy = r → c.lockUntil ≤ l.lockedUntil → c.lockUntil < s.clock ∨ ∃ l' ∈ locks.rows,
        l'.type = c.type ∧ l'.taskID = x ∧ l'.lockedBy = r ∧ c.lockUntil ≤ l'.lockedUntil

variable {locks : Table Lock.type}

theorem Safe.harmless (h : Safe s) (hLocks : Harmless s locks) :
    Safe { s with db := { s.db with locks := locks } } where
  held t ht hRunning := by
    obtain ⟨l, hl, hType, hTask, hBy⟩ := h.held t ht hRunning
    exact hLocks.kept t ht hRunning l hl hType hTask hBy
  loops r := by
    refine (h.loops r).transport ?_
    refine ⟨le_refl s.clock, fun c x h => h, ?_, ?_⟩
    · intro t ht hRunning now _
      refine Or.inr ⟨t, ht, hRunning, rfl, rfl, ?_⟩
      intro hOutlives
      exact ⟨hLocks.outlives t ht hRunning now hOutlives, hOutlives.2⟩
    · intro c x hOwner _ hOwns t ht hTask hPending
      rcases hOwns t ht hTask hPending with hEnded | ⟨l, hl, hType, hlTask, hBy, hUntil⟩
      · exact Or.inl hEnded
      · exact hLocks.owned r c x hOwner t ht hTask hPending l hl hType hlTask hBy hUntil
  works w := (h.works w).of_tasks rfl

theorem Harmless.refl (s : State W) : Harmless s s.db.locks where
  kept _ _ _ l hl hType hTask hBy := ⟨l, hl, hType, hTask, hBy⟩
  outlives _ _ _ _ hOutlives := hOutlives.1
  owned _ _ _ _ _ _ _ _ l hl hType hTask hBy hUntil := Or.inr ⟨l, hl, hType, hTask, hBy, hUntil⟩

theorem Harmless.after (hLocks : Harmless s locks) (o : Write) :
    Harmless s (o.after locks s.db.locks) :=
  o.after_rec hLocks (.refl s)

/-- A lock that is inserted has a type of which no task is running. -/
theorem Harmless.create (h : Safe s) {lock : Lock}
    (hCreate : s.db.locks.create lock = some locks) : Harmless s locks where
  kept _ _ _ l hl hType hTask hBy :=
    ⟨l, (mem_create hCreate).mpr (Or.inr hl), hType, hTask, hBy⟩
  outlives t ht hRunning now hOutlives l' hl' hType := by
    rcases (mem_create hCreate).mp hl' with rfl | hOld
    · obtain ⟨l, hl, hlType, -⟩ := h.held t ht hRunning
      have hFree : s.db.locks.find? l'.type = none := by
        unfold Table.create at hCreate
        split at hCreate
        · assumption
        · cases hCreate
      exact absurd (hlType.trans hType.symm) (find?_eq_none.mp hFree l hl)
    · exact hOutlives.1 l' hOld hType
  owned _ _ _ _ _ _ _ _ l hl hType hTask hBy hUntil :=
    Or.inr ⟨l, (mem_create hCreate).mpr (Or.inr hl), hType, hTask, hBy, hUntil⟩

theorem Harmless.delete {q : Lock → Bool}
    (hRunning : ∀ t ∈ s.db.tasks.rows, t.status = .running → ∀ l ∈ s.db.locks.rows,
      l.type = t.type → l.taskID = t.taskID → l.lockedBy = t.lockedBy → q l = false)
    (hOwned : ∀ r c x, (s.loops r).owns c x → ∀ t ∈ s.db.tasks.rows, t.taskID = x →
      t.status = .pending → ∀ l ∈ s.db.locks.rows, l.taskID = x → l.lockedBy = r →
        c.lockUntil ≤ l.lockedUntil → c.lockUntil < s.clock ∨ q l = false) :
    Harmless s (s.db.locks.delete q) where
  kept t ht hRuns l hl hType hTask hBy := by
    have hKeep : q l = false := hRunning t ht hRuns l hl hType hTask hBy
    exact ⟨l, mem_delete.mpr ⟨hl, hKeep⟩, hType, hTask, hBy⟩
  outlives _ _ _ _ hOutlives l hl hType := hOutlives.1 l (mem_delete.mp hl).1 hType
  owned r c x hOwner t ht hTask hPending l hl hType hlTask hBy hUntil := by
    rcases hOwned r c x hOwner t ht hTask hPending l hl hlTask hBy hUntil with hEnded | hKeep
    · exact Or.inl hEnded
    · exact Or.inr ⟨l, mem_delete.mpr ⟨hl, hKeep⟩, hType, hlTask, hBy, hUntil⟩

theorem isOf_iff {lockedBy : String} {l : Lock} :
    l.isOf taskID lockedBy = true ↔ l.taskID = taskID ∧ l.lockedBy = lockedBy := by
  simp [Lock.isOf]

variable {x : String}

theorem Harmless.release (hIdle : ∀ c y, ¬ (s.loops r).owns c y)
    (hOther : ∀ t ∈ s.db.tasks.rows, t.taskID = x → t.status = .running → t.lockedBy ≠ r) :
    Harmless s (s.db.locks.delete (Lock.isOf x r)) := by
  apply Harmless.delete
  · intro t ht hRunning l _ _ hTask hBy
    rw [Bool.eq_false_iff]
    intro hIsOf
    obtain ⟨hlTask, hlBy⟩ := isOf_iff.mp hIsOf
    exact hOther t ht (hTask.symm.trans hlTask) hRunning (hBy.symm.trans hlBy)
  · intro r' c y hOwner t _ _ _ l _ _ hBy _
    right
    rw [Bool.eq_false_iff]
    intro hIsOf
    obtain ⟨-, hlBy⟩ := isOf_iff.mp hIsOf
    obtain rfl : r' = r := hBy.symm.trans hlBy
    exact hIdle c y hOwner

theorem Harmless.releaseFinished {lockedBy : String}
    (hDone : ∃ t ∈ s.db.tasks.rows, t.taskID = x ∧ t.status.isActive = false) :
    Harmless s (s.db.locks.delete (Lock.isOf x lockedBy)) := by
  obtain ⟨u, hu, huTask, huDone⟩ := hDone
  have hNotActive : ∀ t ∈ s.db.tasks.rows, t.taskID = x → t.status.isActive = false := by
    intro t ht hTask
    rw [s.db.tasks.eq_of_taskID ht hu (hTask.trans huTask.symm)]
    exact huDone
  apply Harmless.delete
  · intro t ht hRunning l _ _ hTask _
    rw [Bool.eq_false_iff]
    intro hIsOf
    have hActive := hNotActive t ht (hTask.symm.trans (isOf_iff.mp hIsOf).1)
    rw [hRunning] at hActive
    cases hActive
  · intro r c y _ t ht hTask hPending l _ hlTask _ _
    right
    rw [Bool.eq_false_iff]
    intro hIsOf
    have hActive := hNotActive t ht ((hTask.trans hlTask.symm).trans (isOf_iff.mp hIsOf).1)
    rw [hPending] at hActive
    cases hActive

theorem sweepable_iff {seen l : Lock} :
    Lock.sweepable seen now l = true ↔ l.type = seen.type ∧ l.taskID = seen.taskID ∧
      l.lockedBy = seen.lockedBy ∧ l.lockedUntil < now := by
  simp [Lock.sweepable, and_assoc]

/-- The sweep deletes an expired lock whose task it spares. -/
theorem Harmless.sweep {lock : Lock} (hNow : now ≤ s.clock) (hSpares : Spares s now lock) :
    Harmless s (s.db.locks.delete (Lock.sweepable lock now)) := by
  apply Harmless.delete
  · intro t ht hRunning l hl hType hTask _
    rw [Bool.eq_false_iff]
    intro hSweepable
    obtain ⟨-, hSeen, -, hExpired⟩ := sweepable_iff.mp hSweepable
    have hOutlives := hSpares t ht hRunning (hTask.symm.trans hSeen)
    have hUntil := hOutlives.1 l hl hType
    omega
  · intro r c y _ t _ _ _ l _ _ _ hUntil
    by_cases hSweepable : Lock.sweepable lock now l = true
    · left
      obtain ⟨-, -, -, hExpired⟩ := sweepable_iff.mp hSweepable
      omega
    · exact Or.inr (Bool.eq_false_iff.mpr hSweepable)

theorem stale_iff {l : Lock} : l.stale type now = true ↔ l.type = type ∧ l.lockedUntil < now := by
  simp [Lock.stale]

/-- A claim takes over an expired lock: a task of its type that is running has a lock that was not
expired when the claim read its clock. -/
theorem Harmless.take (hNow : c.now ≤ s.clock) (hWatches : Watches s c) :
    Harmless s (s.db.locks.modify (Lock.stale c.type c.now) (Lock.taken x r c.lockUntil c.now)
      (Lock.taken_type x r c.lockUntil c.now)) := by
  -- the lock of a running task stays as it is
  have hStays : ∀ t ∈ s.db.tasks.rows, t.status = .running → ∀ l ∈ s.db.locks.rows,
      l.type = t.type → l.stale c.type c.now = false := by
    intro t ht hRunning l hl hType
    rw [Bool.eq_false_iff]
    intro hStale
    obtain ⟨hlType, hExpired⟩ := stale_iff.mp hStale
    have hOutlives := hWatches t ht hRunning (hType.symm.trans hlType)
    have hUntil := hOutlives.1 l hl hType
    omega
  constructor
  · intro t ht hRunning l hl hType hTask hBy
    refine ⟨l, (mem_modify _).mpr ⟨l, hl, ?_⟩, hType, hTask, hBy⟩
    rw [hStays t ht hRunning l hl hType]
    rfl
  · intro t ht hRunning now hOutlives l' hl' hType
    obtain ⟨l, hl, rfl⟩ := (mem_modify _).mp hl'
    have hlType : l.type = t.type := by
      rw [← hType]
      split <;> rfl
    rw [hStays t ht hRunning l hl hlType]
    exact hOutlives.1 l hl hlType
  · intro r' c' x' _ t _ _ _ l hl hType hTask hBy hUntil
    by_cases hStale : l.stale c.type c.now = true
    · left
      obtain ⟨-, hExpired⟩ := stale_iff.mp hStale
      omega
    · right
      refine ⟨l, (mem_modify _).mpr ⟨l, hl, ?_⟩, hType, hTask, hBy, hUntil⟩
      rw [Bool.eq_false_iff.mpr hStale]
      rfl

/-- A renewal under way lasts beyond every time that somebody relies on, and is not for a pending
task. -/
theorem Harmless.renew (h : Safe s) {w : W} {lockedBy : String} {lockUntil : Int}
    (hWork : s.works w = .renewing x lockedBy lockUntil now) :
    Harmless s (s.db.locks.modify (fun l => l.isOf x lockedBy && decide (now ≤ l.lockedUntil))
      (Lock.renewed lockUntil now) (Lock.renewed_type lockUntil now)) := by
  constructor
  · intro t _ _ l hl hType hTask hBy
    refine ⟨_, (mem_modify _).mpr ⟨l, hl, rfl⟩, ?_, ?_, ?_⟩ <;> split <;> assumption
  · intro t ht hRunning time hOutlives l' hl' hType
    obtain ⟨l, hl, rfl⟩ := (mem_modify _).mp hl'
    by_cases hRenewed : (l.isOf x lockedBy && decide (now ≤ l.lockedUntil)) = true
    · rw [if_pos hRenewed] at hType ⊢
      obtain ⟨k, hk, hkType, hkTask, -⟩ := h.held t ht hRunning
      obtain rfl : l = k := eq_of_key (t := s.db.locks) hl hk (hType.trans hkType.symm)
      rw [Bool.and_eq_true] at hRenewed
      obtain rfl : t.taskID = x := hkTask.symm.trans (isOf_iff.mp hRenewed.1).1
      exact hOutlives.2 w lockedBy lockUntil now hWork
    · rw [if_neg hRenewed] at hType ⊢
      exact hOutlives.1 l hl hType
  · intro r c y _ t ht hTask hPending l hl hType hlTask hBy hUntil
    right
    have hSame : (l.isOf x lockedBy && decide (now ≤ l.lockedUntil)) = false := by
      rw [Bool.eq_false_iff]
      intro hRenewed
      rw [Bool.and_eq_true] at hRenewed
      have hSafe := h.works w
      rw [hWork] at hSafe
      obtain ⟨u, hu, huTask, huStatus⟩ := hSafe
      have hxy : t.taskID = u.taskID := by
        rw [hTask, huTask, ← hlTask]
        exact (isOf_iff.mp hRenewed.1).1
      rw [s.db.tasks.eq_of_taskID ht hu hxy] at hPending
      exact huStatus hPending
    refine ⟨l, (mem_modify _).mpr ⟨l, hl, ?_⟩, hType, hlTask, hBy, hUntil⟩
    rw [hSame]
    rfl

/-! ## The steps of a loop -/

theorem Safe.claimRead (h : Safe s) (hKeyed : ∀ type, Keyed type s.db.tasks)
    (hLoop : s.loops r = .claimRead c)
    (hFind : s.db.tasks.rows.find? (Task.claimable c.id c.type) = some t) :
    LoopSafe s r (.claimInsert c t.taskID) := by
  have hNow : c.now ≤ s.clock := by
    have hr := h.loops r
    rwa [hLoop] at hr
  have ht : t ∈ s.db.tasks.rows := mem_of_find?_eq_some hFind
  obtain ⟨hId, hType, hPending⟩ := claimable_iff.mp (find?_some hFind)
  refine ⟨hNow, ⟨⟨t, ht, hId, hType, rfl⟩, ?_⟩, ?_⟩
  · intro u hu hTask hRunning
    rw [s.db.tasks.eq_of_taskID hu ht hTask, hPending] at hRunning
    cases hRunning
  · -- a pending task of the type excludes a running one
    intro u hu hRunning huType
    have hActive : ∀ v : Task, v.status = .pending ∨ v.status = .running →
        v.status.isActive = true := by
      rintro v (hv | hv) <;> rw [hv] <;> rfl
    have hSame : u = t := (hKeyed c.type).eq hu ht huType hType (hActive u (Or.inr hRunning))
      (hActive t (Or.inl hPending))
    rw [hSame, hPending] at hRunning
    cases hRunning

theorem owns_of_mem {l : Lock} (hl : l ∈ s.db.locks.rows) (hType : l.type = c.type)
    (hTask : l.taskID = x) (hBy : l.lockedBy = r) (hUntil : l.lockedUntil = c.lockUntil) :
    Owns s r c x := by
  intro t _ _ _
  exact Or.inr ⟨l, hl, hType, hTask, hBy, le_of_eq hUntil.symm⟩

theorem loopSafe_acquired {expired : String} (hClaims : Claims s r c x) (hOwns : Owns s r c x) :
    LoopSafe s r (.acquired c x expired) := by
  unfold Loop.acquired
  split
  · exact ⟨hClaims, hOwns⟩
  · exact ⟨hClaims, hOwns⟩

theorem loopSafe_sweep (hNow : now ≤ s.clock) (locks : List Lock) :
    LoopSafe s r (.sweep now locks) := by
  cases locks with
  | nil => trivial
  | cons lock rest => exact hNow

theorem Safe.mark (h : Safe s) (o : Write) (clock : Int) (taskID : String) :
    Safe { s with db := s.db.markSystemTaskLeaseExpired o clock taskID } := by
  apply h.calm
  apply Calm.after
  apply Calm.update
  intro t _
  exact Or.inr rfl

theorem not_running_of_mark {db : Db} {clock : Int}
    (ht : t ∈ (db.markSystemTaskLeaseExpired .ok clock taskID).tasks.rows)
    (hTask : t.taskID = taskID) : t.status ≠ .running := by
  intro hRunning
  rcases mem_update_cases.mp ht with ⟨u, -, -, rfl⟩ | ⟨-, hp⟩
  · cases hRunning
  · rw [runs_iff.mpr ⟨hTask, hRunning⟩] at hp
    cases hp

theorem Safe.claimUpdate (h : Safe s) {o : Write} (hLoop : s.loops r = .claimUpdate c x)
    (hTimely : Timely s (.loop r o)) : Safe (let next := (s.loops r).exec r s.clock o s.db
      { s with db := next.2, loops := update s.loops r next.1 }) := by
  have hr := h.loops r
  rw [hLoop] at hr
  obtain ⟨hClaims, hOwns⟩ := hr
  rw [hLoop]
  simp only [Timely, hLoop, LoopTimely] at hTimely
  by_cases hAny : s.db.tasks.rows.any (Task.claimable c.id c.type) = true
  · by_cases hEffect : o.tookEffect = true
    · obtain ⟨hClock, hAnswer⟩ := hTimely hAny hEffect
      obtain rfl : o = .ok := by
        cases o with
        | ok => rfl
        | failed e => cases hEffect
        | lost e => cases hAnswer
      -- first the loop lets go of its claim, then the task is taken over
      have hReload : Safe { s with loops := update s.loops r (.claimReload c) } :=
        h.setLoop r trivial
      have hGoal : Safe { s with
          db :=
            { s.db with tasks := s.db.tasks.update (Task.claimable c.id c.type) (.claim r c.now) }
          loops := update s.loops r (.claimReload c) } := by
        refine hReload.claim (c := c) (update_self r _ _) ?_
        intro t ht hp
        obtain ⟨hId, hType, hPending⟩ := claimable_iff.mp hp
        obtain ⟨⟨u, hu, huId, -, huTask⟩, -⟩ := hClaims
        obtain rfl : t = u :=
          eq_of_key (t := s.db.tasks.toTable) ht hu (hId.trans huId.symm)
        rcases hOwns t ht huTask hPending with hEnded | ⟨l, hl, hlType, hlTask, hBy, hUntil⟩
        · omega
        · exact ⟨l, hl, hlType.trans hType.symm, hlTask.trans huTask.symm, hBy,
            le_trans hClock hUntil⟩
      simpa [Loop.exec, hAny, Write.after_ok] using hGoal
    · have hFailed : o ≠ .ok := by
        rintro rfl
        exact hEffect rfl
      have hRelease := h.setLoop r (p := .claimRelease c x) hClaims
      simpa [Loop.exec, hFailed, Write.after, hEffect] using hRelease
  · -- nothing to take over: the update changes no row
    have hSame : s.db.tasks.update (Task.claimable c.id c.type) (.claim r c.now) = s.db.tasks := by
      apply Tasks.update_eq_self
      intro t ht
      rw [Bool.eq_false_iff]
      intro hp
      exact hAny (any_eq_true.mpr ⟨t, ht, hp⟩)
    have hRelease := h.setLoop r (p := .claimRelease c x) hClaims
    simpa [Loop.exec, hAny, Write.after, hSame] using hRelease

theorem Safe.loop (h : Safe s) (hKeyed : ∀ type, Keyed type s.db.tasks) (r : String) (o : Write)
    (hTimely : Timely s (.loop r o)) :
    Safe (let next := (s.loops r).exec r s.clock o s.db
      { s with db := next.2, loops := update s.loops r next.1 }) := by
  have hr := h.loops r
  cases hLoop : s.loops r with
  | claimUpdate c x =>
    have hNext := h.claimUpdate hLoop hTimely
    rwa [hLoop] at hNext
  | idle => exact h.setLoop r trivial
  | claimReload c => exact h.setLoop r trivial
  | claimRead c =>
    simp only [Loop.exec]
    split
    · rename_i t hFind
      exact h.setLoop r (h.claimRead hKeyed hLoop hFind)
    · exact h.setLoop r trivial
  | claimInsert c x =>
    rw [hLoop] at hr
    obtain ⟨hNow, hClaims, hWatches⟩ := hr
    simp only [Loop.exec]
    split
    · rename_i locks hCreate
      have hLocks := h.harmless ((Harmless.create h hCreate).after o)
      have hLook := hLocks.loops r
      rw [hLoop] at hLook
      refine hLocks.setLoop r ?_
      split
      · rename_i hOk
        subst hOk
        refine ⟨hLook.2.1, ?_⟩
        exact owns_of_mem ((mem_create hCreate).mpr (Or.inl rfl)) rfl rfl rfl rfl
      · exact hLook
    · exact h.setLoop r ⟨hNow, hClaims, hWatches⟩
  | claimLook c x =>
    rw [hLoop] at hr
    simp only [Loop.exec]
    split
    · split
      · exact h.setLoop r trivial
      · exact h.setLoop r hr
    · exact h.setLoop r trivial
  | claimTake c x expired =>
    rw [hLoop] at hr
    obtain ⟨hNow, hClaims, hWatches⟩ := hr
    have hLocks := h.harmless ((Harmless.take (x := x) (r := r) hNow hWatches).after o)
    simp only [Loop.exec]
    refine hLocks.setLoop r ?_
    split
    · rename_i hTaken
      obtain ⟨rfl, hAny⟩ := hTaken
      obtain ⟨l, hl, hStale⟩ := any_eq_true.mp hAny
      refine loopSafe_acquired hClaims ?_
      have hMem := (mem_modify (t := s.db.locks) (p := Lock.stale c.type c.now)
        (Lock.taken_type x r c.lockUntil c.now)).mpr ⟨l, hl, rfl⟩
      rw [if_pos hStale] at hMem
      exact owns_of_mem hMem (stale_iff.mp hStale).1 rfl rfl rfl
    · trivial
  | claimMark c x expired =>
    have hMarked := h.mark o s.clock expired
    have hMark := hMarked.loops r
    rw [hLoop] at hMark
    simp only [Loop.exec]
    refine hMarked.setLoop r ?_
    split
    · exact hMark
    · exact hMark.1
  | claimRelease c x =>
    rw [hLoop] at hr
    have hIdle := h.setLoop r (p := .idle) trivial
    simp only [Loop.exec]
    refine hIdle.harmless ?_
    apply Harmless.after
    apply Harmless.release
    · intro c y hOwner
      dsimp only at hOwner
      rw [update_self] at hOwner
      exact hOwner
    · exact hr.2
  | sweepRead now =>
    rw [hLoop] at hr
    simp only [Loop.exec]
    refine h.setLoop r ?_
    split
    · exact loopSafe_sweep hr _
    · trivial
  | sweepMark now lock rest =>
    rw [hLoop] at hr
    have hMarked := h.mark o s.clock lock.taskID
    simp only [Loop.exec]
    refine hMarked.setLoop r ?_
    split
    · rename_i hOk
      subst hOk
      refine ⟨hr, ?_⟩
      intro t ht hRunning hTask
      exact absurd hRunning (not_running_of_mark ht hTask)
    · trivial
  | sweepDelete now lock rest =>
    rw [hLoop] at hr
    obtain ⟨hNow, hSpares⟩ := hr
    have hLocks := h.harmless ((Harmless.sweep hNow hSpares).after o)
    simp only [Loop.exec]
    refine hLocks.setLoop r ?_
    split
    · apply loopSafe_sweep
      exact hNow
    · trivial

/-! ## Runs -/

variable [DecidableEq W]

theorem Safe.work (h : Safe s) (w : W) (o : Write) :
    Safe (let next := (s.works w).exec o s.db
      { s with db := next.2, works := update s.works w next.1 }) := by
  cases hWork : s.works w with
  | idle => exact h.setWork w trivial nofun
  | updating taskID lockedBy text now =>
    have hCalm : Calm s.db.tasks (s.db.tasks.update (Task.leased s.db.locks taskID lockedBy now)
        (.state text now)) := by
      apply Calm.update
      intro t _
      exact Or.inl ⟨rfl, rfl⟩
    have hTasks := h.calm (hCalm.after o)
    exact hTasks.setWork w trivial nofun
  | renewing taskID lockedBy lockUntil now =>
    have hLocks := h.harmless ((Harmless.renew h hWork).after o)
    exact hLocks.setWork w trivial nofun
  | finishing taskID lockedBy status result error now =>
    have hCalm : Calm s.db.tasks (s.db.tasks.update (Task.leased s.db.locks taskID lockedBy now)
        (.finish status result error now)) := by
      apply Calm.update
      intro t _
      exact Or.inr status.2
    have hTasks := h.calm (hCalm.after o)
    simp only [Work.exec]
    refine hTasks.setWork w ?_ ?_
    · split
      · rename_i hFinished
        obtain ⟨rfl, hAny⟩ := hFinished
        obtain ⟨t, ht, hLeased⟩ := any_eq_true.mp hAny
        exact ⟨_, mem_update_cases.mpr (Or.inl ⟨t, ht, hLeased, rfl⟩), (leased_iff.mp hLeased).1,
          status.2⟩
      · trivial
    · intro _ _ _ _ hEq
      split at hEq <;> cases hEq
  | releasing taskID lockedBy =>
    have hw := h.works w
    rw [hWork] at hw
    have hRelease : Harmless s (s.db.locks.delete (Lock.isOf taskID lockedBy)) :=
      .releaseFinished hw
    have hLocks := h.harmless (hRelease.after o)
    exact hLocks.setWork w trivial nofun

omit [DecidableEq W] in
theorem Safe.startLoop (h : Safe s) (r : String) {p : Loop} (hp : LoopSafe s r p) :
    Safe (s.startLoop r p) := by
  unfold State.startLoop
  split
  · exact h.setLoop r hp
  · exact h

theorem Safe.startWork (h : Safe s) (w : W) {p : Work} (hp : WorkSafe s p)
    (hRenew : ∀ taskID lockedBy lockUntil now, p = .renewing taskID lockedBy lockUntil now →
      s.clock ≤ lockUntil) : Safe (s.startWork w p) := by
  unfold State.startWork
  split
  · exact h.setWork w hp hRenew
  · exact h

theorem step_safe (s : State W) (a : Action W)
    (h : Safe s ∧ ∀ type, Keyed type s.db.tasks) (hTimely : Timely s a) :
    Safe (step s a) ∧ ∀ type, Keyed type (step s a).db.tasks := by
  obtain ⟨h, hKeyed⟩ := h
  refine ⟨?_, fun type => step_keyed type s a (hKeyed type)⟩
  cases a with
  | tick seconds => exact h.tick seconds
  | create id taskID type payload state o =>
    unfold step
    dsimp only
    split
    · rename_i tasks hInsert
      have hCalm : Calm s.db.tasks tasks := .insert hInsert rfl
      exact h.calm (hCalm.after o)
    · exact h
  | startClaim r id type lockUntil | startSweep r => exact h.startLoop r (le_refl s.clock)
  | loop r o => exact h.loop hKeyed r o hTimely
  | crash r => exact h.setLoop r trivial
  | startUpdate w taskID lockedBy text | startFinish w taskID lockedBy status result error =>
    exact h.startWork w trivial nofun
  | startRenew w taskID lockedBy lockUntil =>
    obtain ⟨hUntil, hClaimed⟩ := hTimely
    refine h.startWork w hClaimed ?_
    intro _ _ _ _ hEq
    cases hEq
    exact hUntil
  | work w o => exact h.work w o
  | stop w => exact h.setWork w trivial nofun

/-! ## The sweep fails an abandoned task -/

/-- The task has been failed, and no task of its type holds the active key. -/
def Expired (id : Int) (type : String) (db : Db) : Prop :=
  (∃ t ∈ db.tasks.rows, t.id = id ∧ t.status = .failed) ∧
    ∀ t ∈ db.tasks.rows, t.activeKey ≠ some type

theorem expired_of_mark {db : Db} (ht : t ∈ db.tasks.rows) (hRunning : t.status = .running)
    (hKey : t.activeKey = some type) (clock : Int) :
    Expired t.id type (db.markSystemTaskLeaseExpired .ok clock t.taskID) := by
  have hRuns : t.runs t.taskID = true := runs_iff.mpr ⟨rfl, hRunning⟩
  constructor
  · exact ⟨_, mem_update_cases.mpr (Or.inl ⟨t, ht, hRuns, rfl⟩), rfl, rfl⟩
  · intro u hu huKey
    rcases mem_update_cases.mp hu with ⟨u, -, -, rfl⟩ | ⟨hu, hp⟩
    · cases huKey
    · -- the row with the key is the task itself, which the mark changes
      obtain rfl : u = t := db.tasks.activeKeys.eq hu ht huKey hKey
      rw [hRuns] at hp
      cases hp

theorem mem_mark_of_ne {db : Db} (ht : t ∈ db.tasks.rows) (hne : t.taskID ≠ taskID) (clock : Int) :
    t ∈ (db.markSystemTaskLeaseExpired .ok clock taskID).tasks.rows := by
  refine mem_update_cases.mpr (Or.inr ⟨ht, ?_⟩)
  rw [Bool.eq_false_iff]
  intro hRuns
  exact hne (runs_iff.mp hRuns).1

theorem step_loop {s : State W} {p : Loop} (h : s.loops r = p) (o : Write) :
    step s (.loop r o) = { s with
      db := (p.exec r s.clock o s.db).2
      loops := update s.loops r (p.exec r s.clock o s.db).1 } := by
  rw [← h]
  rfl

/-- The sweep over locks of which one is for a running task comes to that lock. -/
theorem sweep_expires (hRunning : t.status = .running) (hKey : t.activeKey = some type)
    (locks : List Lock) (s : State W) (ht : t ∈ s.db.tasks.rows)
    (hLoop : s.loops r = .sweep now locks) (hLock : ∃ l ∈ locks, l.taskID = t.taskID) :
    ∃ n, Expired t.id type (run step s (replicate n (.loop r .ok))).db := by
  induction locks generalizing s with
  | nil =>
    obtain ⟨l, hl, -⟩ := hLock
    cases hl
  | cons lock rest ih =>
    have hMark : step s (.loop r .ok) =
        { s with
          db := s.db.markSystemTaskLeaseExpired .ok s.clock lock.taskID
          loops := update s.loops r (.sweepDelete now lock rest) } :=
      step_loop hLoop .ok
    by_cases hSame : lock.taskID = t.taskID
    · refine ⟨1, ?_⟩
      rw [replicate_one, run_cons, run_nil, hMark, hSame]
      exact expired_of_mark ht hRunning hKey s.clock
    · -- one mark and one delete later the sweep is at the rest
      let s' := step (step s (.loop r .ok)) (.loop r .ok)
      have hDelete : s'.loops r = .sweep now rest ∧ t ∈ s'.db.tasks.rows := by
        have hStays := mem_mark_of_ne ht (Ne.symm hSame) s.clock
        simp only [s']
        rw [hMark, step_loop (p := .sweepDelete now lock rest) (update_self r _ _)]
        exact ⟨update_self r _ _, hStays⟩
      have hRest : ∃ l ∈ rest, l.taskID = t.taskID := by
        obtain ⟨l, hl, hTask⟩ := hLock
        rcases mem_cons.mp hl with rfl | hl
        · exact absurd hTask hSame
        · exact ⟨l, hl, hTask⟩
      obtain ⟨n, hn⟩ := ih s' hDelete.2 hDelete.1 hRest
      refine ⟨n + 2, ?_⟩
      rw [replicate_succ, replicate_succ, run_cons, run_cons]
      exact hn

/-- Once the lease has ended, the sweep of an idle runner fails a running task that has its lock. -/
theorem sweep_recovers {s : State W} (hHeld : Held s.db) (ht : t ∈ s.db.tasks.rows)
    (hRunning : t.status = .running) (hKey : t.activeKey = some t.type)
    (hIdle : s.loops r = .idle) :
    ∃ seconds n, Expired t.id t.type
      (run step s (.tick seconds :: .startSweep r :: replicate n (.loop r .ok))).db := by
  obtain ⟨l, hl, -, hTask, -⟩ := hHeld t ht hRunning
  let seconds := (l.lockedUntil - s.clock + 1).toNat
  let now := s.clock + seconds
  have hExpired : l.lockedUntil < now := by
    simp only [now, seconds]
    omega
  let s' := step (step (step s (.tick seconds)) (.startSweep r)) (.loop r .ok)
  have hStart : step (step s (.tick seconds)) (.startSweep r) =
      { s with clock := now, loops := update s.loops r (.sweepRead now) } := by
    simp only [step, State.startLoop, hIdle, if_true, now]
  have hSwept : s'.loops r = .sweep now (s.db.locks.rows.filter fun l => l.lockedUntil < now) ∧
      t ∈ s'.db.tasks.rows := by
    simp only [s']
    rw [hStart, step_loop (p := .sweepRead now) (update_self r _ _)]
    exact ⟨update_self r _ _, ht⟩
  have hLock : ∃ k ∈ s.db.locks.rows.filter (fun l => l.lockedUntil < now), k.taskID = t.taskID :=
    ⟨l, mem_filter.mpr ⟨hl, decide_eq_true hExpired⟩, hTask⟩
  obtain ⟨n, hn⟩ := sweep_expires hRunning hKey _ s' hSwept.2 hSwept.1 hLock
  refine ⟨seconds, n + 1, ?_⟩
  rw [replicate_succ, run_cons, run_cons, run_cons]
  exact hn

/-- Nobody is at work, every running task has its lock, and every active task its active key. -/
structure AtRest (s : State W) : Prop where
  loops : ∀ r, s.loops r = .idle
  works : ∀ w, s.works w = .idle
  held : Held s.db
  keyed : ∀ type, Keyed type s.db.tasks

omit [DecidableEq W] in
theorem AtRest.safe {s : State W} (h : AtRest s) : Safe s where
  held := h.held
  loops r := by
    rw [h.loops r]
    trivial
  works w := by
    rw [h.works w]
    trivial

/-- In every run in which no claim takes its task over after the end of its lease, every running
task has the lock of its type, for itself and its runner; and a sweep can always fail it, which
frees the active key of its type. -/
theorem held_of_timely {s : State W} (hs : AtRest s) {l : List (Action W)}
    (hl : Guarded step Timely s l) :
    Held (run step s l).db ∧
      ∀ t ∈ (run step s l).db.tasks.rows, t.status = .running →
        ∀ r, (run step s l).loops r = .idle → ∃ seconds n, Expired t.id t.type
          (run step (run step s l)
            (.tick seconds :: .startSweep r :: replicate n (.loop r .ok))).db := by
  obtain ⟨hSafe, hKeyed⟩ := hl.invariant step_safe ⟨hs.safe, hs.keyed⟩
  refine ⟨hSafe.held, ?_⟩
  intro t ht hRunning r hIdle
  have hActive : t.status.isActive = true := by
    rw [hRunning]
    rfl
  exact sweep_recovers hSafe.held ht hRunning (hKeyed t.type t ht rfl hActive) hIdle

end

instance (db : Db) : Decidable (Held db) :=
  inferInstanceAs (Decidable (∀ t ∈ db.tasks.rows, t.status = .running →
    ∃ l ∈ db.locks.rows, l.type = t.type ∧ l.taskID = t.taskID ∧ l.lockedBy = t.lockedBy))

instance {W : Type*} (s : State W) (o : Write) (p : Loop) : Decidable (LoopTimely s o p) :=
  match p with
  | .claimUpdate c _ =>
    inferInstanceAs (Decidable (s.db.tasks.rows.any (Task.claimable c.id c.type) = true →
      o.tookEffect = true → s.clock ≤ c.lockUntil ∧ o.isLost = false))
  | .idle | .claimRead _ | .claimInsert _ _ | .claimLook _ _ | .claimTake _ _ _ | .claimMark _ _ _
  | .claimRelease _ _ | .claimReload _ | .sweepRead _ | .sweepMark _ _ _ | .sweepDelete _ _ _ =>
    inferInstanceAs (Decidable True)

instance {W : Type*} (s : State W) (a : Action W) : Decidable (Timely s a) :=
  match a with
  | .loop r o => inferInstanceAs (Decidable (LoopTimely s o (s.loops r)))
  | .startRenew _ taskID _ lockUntil =>
    inferInstanceAs (Decidable (s.clock ≤ lockUntil ∧
      ∃ t ∈ s.db.tasks.rows, t.taskID = taskID ∧ t.status ≠ .pending))
  | .tick _ | .create _ _ _ _ _ _ | .startClaim _ _ _ _ | .startSweep _ | .crash _
  | .startUpdate _ _ _ _ | .startFinish _ _ _ _ _ _ | .work _ _ | .stop _ =>
    inferInstanceAs (Decidable True)

/-- Runner `a` inserts the lock and stalls past its lease; the sweep of `b` deletes the lock of the
task, which is still pending; then `a` makes the task running. -/
def stalledClaim : List (Action Unit) :=
  [.create 1 "systask_1" "log_cleanup" "" "" .ok, .startClaim "a" 1 "log_cleanup" 160,
    .loop "a" .ok, .loop "a" .ok, .tick 61, .startSweep "b", .loop "b" .ok, .loop "b" .ok,
    .loop "b" .ok, .loop "a" .ok]

/-- Runner `b` takes the expired lock over, and `a` makes the task running; `b` finds it no longer
pending and gives the lock back. -/
def overtakenClaim : List (Action Unit) :=
  [.create 1 "systask_1" "log_cleanup" "" "" .ok, .startClaim "a" 1 "log_cleanup" 160,
    .loop "a" .ok, .loop "a" .ok, .tick 61, .startClaim "b" 1 "log_cleanup" 221, .loop "b" .ok,
    .loop "b" .ok, .loop "b" .ok, .loop "b" .ok, .loop "a" .ok, .loop "b" .ok, .loop "b" .ok]

/-- A stalled claim leaves a running task and no lock at all. -/
theorem stalledClaim_orphans :
    ¬ Held (run step State.empty stalledClaim).db ∧
      (run step State.empty stalledClaim).db.locks.rows = [] ∧
      ¬ Held (run step State.empty overtakenClaim).db ∧
      (run step State.empty overtakenClaim).db.locks.rows = [] := by
  decide

def abandonedTask : List (Action Unit) :=
  [.create 1 "systask_1" "log_cleanup" "" "" .ok, .startClaim "a" 1 "log_cleanup" 160,
    .loop "a" .ok, .loop "a" .ok, .tick 30, .loop "a" .ok, .loop "a" .ok,
    .startRenew () "systask_1" "a" 190, .work () .ok, .crash "a"]

theorem held_of_timely_abandonedTask :
    (run step State.empty abandonedTask).db.tasks.rows.map (fun t => (t.status, t.lockedBy)) =
        [(.running, "a")] ∧
      Held (run step State.empty abandonedTask).db ∧
      ∀ t ∈ (run step State.empty abandonedTask).db.tasks.rows, t.status = .running →
        ∀ r, (run step State.empty abandonedTask).loops r = .idle →
          ∃ seconds n, Expired t.id t.type (run step (run step State.empty abandonedTask)
            (.tick seconds :: .startSweep r :: replicate n (.loop r .ok))).db := by
  have hRest : AtRest (State.empty (W := Unit)) :=
    ⟨fun _ => rfl, fun _ => rfl, by decide, fun type => keyed_empty type⟩
  exact ⟨by decide, held_of_timely hRest (by decide)⟩

end Qapi.SystemTask
