import Qapi.Async.Polling
import Qapi.Async.Video
import Qapi.Core.Ledger

/-!
# Refunds of the tasks that polling passes fail

`RunTaskPollingOnce` over the table of tasks, in any interleaving of passes and other
writers. A pass fails a row in four ways: a timeout and a failed video task by a
compare-and-swap whose winner refunds, a failed Suno task by a refund and an
unconditional save after it, and a task without upstream id or with a channel that
cannot be loaded by a bulk update without a refund. `Safe` says which steps keep a
row's failure and its refund together; the bulk updates do only where they change no
status.
-/

namespace Qapi.Async.Polling

open Qapi.Core Subscription Billing Function Table List

/-! ## Statements -/

/-- `UpdateWithStatus`. -/
def updateWithStatus (o : Write) (rows : Table SyncTask.key) (task : SyncTask)
    (fromStatus : TaskStatus) : Table SyncTask.key × Except Err Bool :=
  saveIf o rows (fun r => r.status = fromStatus) task

/-- `Update`. -/
def update (o : Write) (rows : Table SyncTask.key) (task : SyncTask) : Table SyncTask.key :=
  if o.tookEffect then rows.save task else rows

def failRow (failReason : Option String) (row : SyncTask) : SyncTask :=
  { row with
    failReason := failReason.getD row.failReason
    status := .failure
    progress := "100%" }

theorem failRow_key (failReason : Option String) (row : SyncTask) :
    (failRow failReason row).key = row.key := rfl

/-- `TaskBulkUpdateByID` with the parameters of a failure. -/
def taskBulkUpdateByID (o : Write) (ids : List Int) (failReason : Option String)
    (rows : Table SyncTask.key) : Table SyncTask.key :=
  if o.tookEffect then
    rows.modify (fun r => r.key ∈ ids) (failRow failReason) (failRow_key failReason)
  else rows

/-- `GetTimedOutUnfinishedTasks`. -/
def getTimedOutUnfinishedTasks (cutoffUnix : Int) (limit : Nat) (rows : Table SyncTask.key) :
    List SyncTask :=
  ((rows.rows.filter fun t => t.timedOut cutoffUnix).insertionSort fun t u =>
    t.submitTime ≤ u.submitTime).take limit

/-! ## Passes over the table -/

/-- The copy of a row that a pass works on: it is to be swept, it is held between two results, it
has taken over a Suno item and is to be saved, or it has been written and is to be billed. -/
inductive Copy
  | absent
  | sweeping (task : SyncTask)
  | holding (task : SyncTask)
  | saving (task : SyncTask)
  | billing (task : SyncTask) (bill : Bill) (totalTokens : Int)

/-- What a pass has read. The sweep that a pass begins with has a number of its own. -/
inductive Phase
  | idle
  | sweeping
  | polling (tasks : List SyncTask)

/-- The rows, `n` passes over them with their copies, the balances, the rows that passes have moved
to `FAILURE`, and how many refunds of a row took effect. -/
structure State (n : Nat) where
  rows : Table SyncTask.key
  phases : Fin n → Phase
  copies : Fin n × Int → Copy
  world : World
  moved : Int → Bool
  refunds : Int → Nat

def failed (rows : Table SyncTask.key) (id : Int) : Bool :=
  (rows.find? id).any fun r => r.status = .failure

variable {n : Nat}

/-- The rows after a statement of a pass, with the rows that it has moved to `FAILURE`. -/
def State.write (s : State n) (rows : Table SyncTask.key) : State n :=
  { s with
    rows := rows
    moved := fun id => s.moved id || (!failed s.rows id && failed rows id) }

def State.setCopy (s : State n) (c : Fin n × Int) (x : Copy) : State n :=
  { s with copies := Function.update s.copies c x }

def State.begin (s : State n) (p : Fin n) (phase : Phase) (copies : Int → Copy) : State n :=
  { s with
    phases := Function.update s.phases p phase
    copies := fun c => if c.1 = p then copies c.2 else s.copies c }

def load (f : SyncTask → Copy) (tasks : List SyncTask) (id : Int) : Copy :=
  match tasks.find? fun t => t.key = id with
  | some t => f t
  | none => .absent

def State.grouping (s : State n) (p : Fin n) (platform : Platform) : Grouping :=
  match s.phases p with
  | .polling tasks => group (tasks.filter fun t => t.platform = platform)
  | _ => .empty

/-- The id and the copy of the task that `taskM` holds for the upstream id, if no save or billing
call is left from an earlier result. -/
def State.held (s : State n) (p : Fin n) (platform : Platform) (upstreamID : String) :
    Option (Int × SyncTask) :=
  match (s.grouping p platform).taskM upstreamID with
  | some t =>
    match s.copies (p, t.key) with
    | .holding task => some (t.key, task)
    | _ => none
  | none => none

def Grouping.failedIDs (g : Grouping) (channelId : Int) : List Int :=
  (g.taskChannelM channelId).filterMap fun upstreamID => (g.taskM upstreamID).map (·.key)

/-- The reason that the update of a platform gives for a channel that cannot be loaded; there is
no update for Midjourney. -/
def channelMissingReason (platform : Platform) (channelId : Int) : Option String :=
  match platform with
  | .midjourney => none
  | .suno => some ("获取渠道信息失败，请联系管理员，渠道ID：" ++ toString channelId)
  | .other _ => some ("Failed to get channel info, channel ID: " ++ toString channelId)

structure Config extends Async.Config where
  marshal : String → String
  taskQueryLimit : Nat

/-! ## What a video result does to the copy and to the row -/

/-- The copy after a result that is not written: it keeps the response, and the status if that is
one that the `switch` does not know. -/
def unwritten (t : Task) (r : VideoResponse) : Task :=
  match r.parsed with
  | none => t
  | some parsed =>
    match resolveEmptyStatus r parsed with
    | none => { t with data := r.data }
    | some info => { t with data := r.data, status := TaskStatus.ofText info.status }

/-- The write of `updateVideoSingleTask` and the billing call that is left to do. -/
def writePolled (o : Write) (rows : Table SyncTask.key) (snap : SyncTask) (x : Polled) :
    Table SyncTask.key × Option Bill :=
  let task : SyncTask := { snap with toTask := x.task }
  if x.task.status.isTerminal ∧ snap.status ≠ x.task.status then
    match updateWithStatus o rows task snap.status with
    | (rows, .ok true) => (rows, x.bill)
    | (rows, _) => (rows, none)
  else if !snapshotEqual snap.toTask x.task then
    ((updateWithStatus o rows task snap.status).1, x.bill)
  else (rows, x.bill)

def afterWritten (task : SyncTask) (totalTokens : Int) : Option Bill → Copy
  | none => .holding task
  | some b => .billing task b totalTokens

/-! ## Steps -/

/-- What passes and other writers do, one statement or billing call at a time. -/
inductive Action (n : Nat)
  | readTimedOut (p : Fin n) (cutoffUnix : Int)
  | sweep (p : Fin n) (id : Int) (now : Int) (o : Write)
  | read (p : Fin n)
  | failNull (p : Fin n) (platform : Platform) (o : Write)
  | channelMissing (p : Fin n) (platform : Platform) (channelId : Int) (o : Write)
  | sunoItem (p : Fin n) (item : SunoItem) (o : Outcome)
  | sunoSave (p : Fin n) (id : Int) (o : Write)
  | videoPoll (p : Fin n) (text upstreamID : String) (r : VideoResponse) (now : Int) (o : Write)
  | bill (p : Fin n) (id : Int) (adjusted : Int) (o : Outcome)
  | other (row : SyncTask)

def countRefund (refunds : Int → Nat) (id : Int) (tookEffect : Bool) : Int → Nat :=
  if tookEffect then Function.update refunds id (refunds id + 1) else refunds

def settleRow (o : Outcome) (t settled : Task) (row : SyncTask) : SyncTask :=
  { row with quota := (writeQuota o row.toTask t settled).quota }

theorem settleRow_key (o : Outcome) (t settled : Task) (row : SyncTask) :
    (settleRow o t settled row).key = row.key := rfl

def settleRows (o : Outcome) (rows : Table SyncTask.key) (id : Int) (t settled : Task) :
    Table SyncTask.key :=
  rows.modify (fun r => r.key = id) (settleRow o t settled) (settleRow_key o t settled)

/-- The rows after the write of a sweep. A timeout of the old system is not refunded by design and
does not count as moved. -/
def State.writeTimeout (s : State n) (t : SyncTask) (rows : Table SyncTask.key) : State n :=
  if t.isLegacy then { s with rows := rows } else s.write rows

def step (cfg : Config) (s : State n) : Action n → State n
  | .readTimedOut p cutoffUnix =>
    match s.phases p with
    | .idle =>
      if 0 < cfg.taskTimeoutMinutes then
        s.begin p .sweeping (load .sweeping (getTimedOutUnfinishedTasks cutoffUnix 100 s.rows))
      else s
    | _ => s
  | .sweep p id now o =>
    match s.copies (p, id) with
    | .sweeping t =>
      let task : SyncTask := { t with toTask := timeOut cfg.taskTimeoutMinutes now t.toTask }
      match updateWithStatus o s.rows task t.status with
      | (rows, .ok true) =>
        (s.writeTimeout t rows).setCopy (p, id)
          (if sweepRefunds t.toTask then .billing task .refund 0 else .absent)
      | (rows, _) => (s.writeTimeout t rows).setCopy (p, id) .absent
    | _ => s
  | .read p =>
    match s.phases p with
    | .idle =>
      let tasks := getAllUnFinishSyncTasks cfg.taskQueryLimit s.rows
      s.begin p (.polling tasks) (load .holding tasks)
    | _ => s
  | .failNull p platform o =>
    s.write (taskBulkUpdateByID o (s.grouping p platform).nullTaskIds none s.rows)
  | .channelMissing p platform channelId o =>
    match channelMissingReason platform channelId with
    | none => s
    | some reason =>
      s.write (taskBulkUpdateByID o ((s.grouping p platform).failedIDs channelId) reason s.rows)
  | .sunoItem p item o =>
    match s.held p .suno item.taskID with
    | none => s
    | some (id, t) =>
      if Suno.taskNeedsUpdate cfg.marshal t.toTask item.toSunoDataResponse then
        let (tookEffect, world) :=
          Suno.refundItem o t.toTask item.toSunoDataResponse s.world
        let task : SyncTask :=
          { t with toTask := Suno.applyItem t.toTask item.toSunoDataResponse }
        { s.setCopy (p, id) (.saving task) with
          world := world
          refunds := countRefund s.refunds id tookEffect }
      else s
  | .sunoSave p id o =>
    match s.copies (p, id) with
    -- an error of the save is logged, and the loop goes on with the copy
    | .saving t => (s.write (update o s.rows t)).setCopy (p, id) (.holding t)
    | _ => s
  | .videoPoll p text upstreamID r now o =>
    match s.held p (.other text) upstreamID with
    | none => s
    | some (id, t) =>
      match pollTask cfg.toConfig now t.toTask r with
      | none => s.setCopy (p, id) (.holding { t with toTask := unwritten t.toTask r })
      | some x =>
        let (rows, bill) := writePolled o s.rows t x
        (s.write rows).setCopy (p, id)
          (afterWritten { t with toTask := x.task } x.totalTokens bill)
  | .bill p id adjusted o =>
    match s.copies (p, id) with
    | .billing t .refund _ =>
      let (tookEffect, world) := refundTaskQuota o t.toTask s.world
      { s.setCopy (p, id) (.holding t) with
        world := world
        refunds := countRefund s.refunds id tookEffect }
    | .billing t .settle totalTokens =>
      let (settled, world) :=
        settleTaskBillingOnComplete cfg.settings o adjusted totalTokens t.toTask s.world
      { (s.write (settleRows o s.rows id t.toTask settled)).setCopy (p, id)
          (.holding { t with toTask := settled }) with world := world }
    | _ => s
  | .other row => { s with rows := s.rows.save row }

def Action.ofPass : Action n → Bool
  | .other _ => false
  | _ => true

/-! ## The condition -/

def Copy.sweeping? : Copy → Option SyncTask
  | .sweeping t => some t
  | _ => none

def Copy.saving? : Copy → Option SyncTask
  | .saving t => some t
  | _ => none

def Copy.refunding? : Copy → Option SyncTask
  | .billing t .refund _ => some t
  | _ => none

/-- The copy has been refunded, and its failure is still to be saved. -/
def Copy.waits (x : Copy) : Bool := x.saving?.any fun t => t.status = .failure

def State.Waiting (s : State n) (id : Int) : Prop := ∃ p, (s.copies (p, id)).waits = true

def openRow (rows : Table SyncTask.key) (id : Int) : Bool :=
  (rows.find? id).any fun r => !r.status.isTerminal

/-- The bulk update changes no status: the rows with the ids are `FAILURE` already. -/
def AllFailed (rows : Table SyncTask.key) (ids : List Int) : Prop :=
  ∀ id ∈ ids, ∀ r ∈ rows.find? id, r.status = .failure

/-- The condition on a Suno item for the copy: if it makes the pass refund the task, it says
`FAILURE`, the task neither is `FAILURE` nor has been refunded, and nothing stands in the way of
the refund. -/
def SafeItem (s : State n) (id : Int) (t : Task) (item : Suno.SunoDataResponse) (o : Outcome) :
    Prop :=
  Suno.reportsFailure t item = true →
    (Suno.takeFields t item).status = .failure ∧ failed s.rows id = false ∧ ¬ s.Waiting id ∧
      Refundable o t s.world

/-- The condition on an action. A bulk update changes no status; a result is applied to a copy
that is not final, and a write that moves a task to `FAILURE` is not answered with an error
after it took effect, nor made for a task that has been refunded already; nothing stands in the way
of a refund; a Suno copy is saved over an open row, and if it is `FAILURE` the save takes effect;
other writers leave a `FAILURE` as it is. -/
def Safe (cfg : Config) (s : State n) : Action n → Prop
  | .sweep p id _ o => ∀ t ∈ (s.copies (p, id)).sweeping?,
      t.isLegacy = false → o.isLost = false ∧ ¬ s.Waiting id
  | .failNull p platform o =>
      o.tookEffect = true → AllFailed s.rows (s.grouping p platform).nullTaskIds
  | .channelMissing p platform channelId o => platform ≠ .midjourney →
      o.tookEffect = true → AllFailed s.rows ((s.grouping p platform).failedIDs channelId)
  | .sunoItem p item o => ∀ x ∈ s.held p .suno item.taskID,
      Suno.taskNeedsUpdate cfg.marshal x.2.toTask item.toSunoDataResponse = true →
        SafeItem s x.1 x.2.toTask item.toSunoDataResponse o
  | .sunoSave p id o => ∀ t ∈ (s.copies (p, id)).saving?,
      (o.tookEffect = true → openRow s.rows id = true) ∧
        (t.status = .failure → o.tookEffect = true)
  | .videoPoll p text upstreamID r now o => ∀ x ∈ s.held p (.other text) upstreamID,
      x.2.status.isTerminal = false ∧ ∀ y ∈ pollTask cfg.toConfig now x.2.toTask r,
        y.task.status = .failure → o.isLost = false ∧ ¬ s.Waiting x.1
  | .bill p id _ o => ∀ t ∈ (s.copies (p, id)).refunding?, Refundable o t.toTask s.world
  | .other row => (failed s.rows row.key = true → row.status = .failure) ∧ 0 < row.quota
  | _ => True

instance (s : State n) (id : Int) : Decidable (s.Waiting id) :=
  inferInstanceAs (Decidable (∃ p, (s.copies (p, id)).waits = true))

instance (rows : Table SyncTask.key) (ids : List Int) : Decidable (AllFailed rows ids) :=
  inferInstanceAs (Decidable (∀ id ∈ ids, ∀ r ∈ rows.find? id, r.status = .failure))

instance (s : State n) (id : Int) (t : Task) (item : Suno.SunoDataResponse) (o : Outcome) :
    Decidable (SafeItem s id t item o) := inferInstanceAs (Decidable (_ → _ ∧ _ ∧ _ ∧ _))

instance (cfg : Config) (s : State n) : ∀ a, Decidable (Safe cfg s a)
  | .readTimedOut _ _ => inferInstanceAs (Decidable True)
  | .read _ => inferInstanceAs (Decidable True)
  | .sweep _ _ _ _ => inferInstanceAs (Decidable (∀ t ∈ _, _ → _ ∧ _))
  | .failNull _ _ _ => inferInstanceAs (Decidable (_ → AllFailed _ _))
  | .channelMissing _ _ _ _ => inferInstanceAs (Decidable (_ → _ → AllFailed _ _))
  | .sunoItem _ _ _ => inferInstanceAs (Decidable (∀ x ∈ _, _ → SafeItem _ _ _ _ _))
  | .sunoSave _ _ _ => inferInstanceAs (Decidable (∀ t ∈ _, (_ → _) ∧ (_ → _)))
  | .videoPoll _ _ _ _ _ _ => inferInstanceAs (Decidable (∀ x ∈ _, _ ∧ ∀ y ∈ _, _ → _ ∧ _))
  | .bill _ _ _ _ => inferInstanceAs (Decidable (∀ t ∈ _, Refundable _ _ _))
  | .other _ => inferInstanceAs (Decidable ((_ → _) ∧ _))

/-! ## What the statements keep -/

/-- A `FAILURE` stays one, nothing but the quota of a row that is `SUCCESS` changes, and quotas
stay positive. -/
structure Keeps (rows rows' : Table SyncTask.key) : Prop where
  failure : ∀ id, failed rows id = true → failed rows' id = true
  success : ∀ id r, rows.find? id = some r → r.status = .success →
    ∃ quota, rows'.find? id = some { r with quota := quota }
  positive : (∀ r ∈ rows, 0 < r.quota) → ∀ r ∈ rows', 0 < r.quota

section

variable {rows : Table SyncTask.key} {t : SyncTask} {id : Int}

theorem Keeps.refl (rows : Table SyncTask.key) : Keeps rows rows :=
  ⟨fun _ h => h, fun _ r h _ => ⟨r.quota, h⟩, fun h => h⟩

theorem failed_iff : failed rows id = true ↔ ∃ r, rows.find? id = some r ∧ r.status = .failure := by
  simp [failed, Option.any_eq_true]

theorem openRow_iff :
    openRow rows id = true ↔ ∃ r, rows.find? id = some r ∧ r.status.isTerminal = false := by
  simp [openRow, Option.any_eq_true]

theorem not_failed_of_open (h : openRow rows id = true) : failed rows id = false := by
  obtain ⟨r, hFind, hOpen⟩ := openRow_iff.mp h
  rw [Bool.eq_false_iff]
  intro hFailed
  obtain ⟨r', hFind', hStatus⟩ := failed_iff.mp hFailed
  rw [hFind] at hFind'
  cases hFind'
  rw [hStatus] at hOpen
  cases hOpen

theorem failed_save_self (h : openRow rows t.key = true) :
    failed (rows.save t) t.key = decide (t.status = .failure) := by
  obtain ⟨r, hFind, -⟩ := openRow_iff.mp h
  rw [failed, find?_save_self rfl hFind]
  rfl

theorem failed_save_of_ne (h : id ≠ t.key) : failed (rows.save t) id = failed rows id := by
  rw [failed, find?_save_of_ne h]
  rfl

theorem keeps_save (hOpen : openRow rows t.key = true) (hQuota : 0 < t.quota) :
    Keeps rows (rows.save t) := by
  obtain ⟨r₀, hFind₀, hStatus₀⟩ := openRow_iff.mp hOpen
  -- the row that is written over is not final, so every final row is another one
  have hne : ∀ id r, rows.find? id = some r → r.status.isTerminal = true → id ≠ t.key := by
    rintro id r hFind hFinal rfl
    rw [hFind₀] at hFind
    cases hFind
    rw [hStatus₀] at hFinal
    cases hFinal
  constructor
  · intro id h
    obtain ⟨r, hFind, hStatus⟩ := failed_iff.mp h
    rwa [failed_save_of_ne (hne id r hFind (by rw [hStatus]; rfl))]
  · intro id r hFind hStatus
    refine ⟨r.quota, ?_⟩
    rw [find?_save_of_ne (hne id r hFind (by rw [hStatus]; rfl)), hFind]
  · intro h r hr
    rcases eq_or_mem_of_mem_save hr with rfl | hr
    · exact hQuota
    · exact h r hr

variable {failReason : Option String}

theorem find?_bulk {o : Write} {ids : List Int} (h : o.tookEffect = true → AllFailed rows ids)
    {r : SyncTask} (hFind : rows.find? id = some r) :
    (taskBulkUpdateByID o ids failReason rows).find? id = some r ∨
      r.status = .failure ∧
        (taskBulkUpdateByID o ids failReason rows).find? id = some (failRow failReason r) := by
  unfold taskBulkUpdateByID
  split
  · rename_i hEffect
    rw [find?_modify, hFind, Option.map_some]
    by_cases hIds : r.key ∈ ids
    · refine Or.inr ⟨h hEffect _ hIds r ?_, by simp [hIds]⟩
      rw [key_of_find? hFind]
      exact hFind
    · exact Or.inl (by simp [hIds])
  · exact Or.inl hFind

theorem keeps_bulk {o : Write} {ids : List Int} (h : o.tookEffect = true → AllFailed rows ids) :
    Keeps rows (taskBulkUpdateByID o ids failReason rows) := by
  constructor
  · intro id hFailed
    obtain ⟨r, hFind, hStatus⟩ := failed_iff.mp hFailed
    rcases find?_bulk h hFind with hSame | ⟨-, hNew⟩
    · exact failed_iff.mpr ⟨r, hSame, hStatus⟩
    · exact failed_iff.mpr ⟨_, hNew, rfl⟩
  · intro id r hFind hStatus
    rcases find?_bulk h hFind with hSame | ⟨hFailure, -⟩
    · exact ⟨r.quota, hSame⟩
    · rw [hStatus] at hFailure
      cases hFailure
  · intro hPos r hr
    unfold taskBulkUpdateByID at hr
    split at hr
    · rw [mem_modify] at hr
      obtain ⟨r', hr', rfl⟩ := hr
      split
      · exact hPos r' hr'
      · exact hPos r' hr'
    · exact hPos r hr

theorem failed_of_bulk {o : Write} {ids : List Int}
    (h : o.tookEffect = true → AllFailed rows ids)
    (hFailed : failed (taskBulkUpdateByID o ids failReason rows) id = true) :
    failed rows id = true := by
  obtain ⟨r, hFind, hStatus⟩ := failed_iff.mp hFailed
  cases hOld : rows.find? id with
  | none =>
    unfold taskBulkUpdateByID at hFind
    split at hFind
    · rw [find?_modify, hOld] at hFind
      cases hFind
    · rw [hOld] at hFind
      cases hFind
  | some r₀ =>
    rcases find?_bulk h hOld with hSame | ⟨hFailure, -⟩
    · rw [hFind] at hSame
      cases hSame
      exact failed_iff.mpr ⟨r, hOld, hStatus⟩
    · exact failed_iff.mpr ⟨r₀, hOld, hFailure⟩

theorem find?_settleRows (o : Outcome) (id : Int) (task settled : Task) {r : SyncTask} {k : Int}
    (hFind : rows.find? k = some r) :
    ∃ quota, (settleRows o rows id task settled).find? k = some { r with quota := quota } := by
  rw [settleRows, find?_modify, hFind, Option.map_some]
  split
  · exact ⟨_, rfl⟩
  · exact ⟨r.quota, rfl⟩

theorem failed_settleRows (o : Outcome) (rows : Table SyncTask.key) (id : Int)
    (task settled : Task) (k : Int) :
    failed (settleRows o rows id task settled) k = failed rows k := by
  cases hFind : rows.find? k with
  | none => simp [failed, settleRows, find?_modify, hFind]
  | some r =>
    obtain ⟨quota, hNew⟩ := find?_settleRows o id task settled hFind
    rw [failed, failed, hNew, hFind]
    rfl

theorem keeps_settleRows (o : Outcome) (id : Int) (task : Task) {settled : Task}
    (hQuota : 0 < settled.quota) :
    Keeps rows (settleRows o rows id task settled) := by
  constructor
  · intro k hFailed
    rwa [failed_settleRows]
  · intro k r hFind _
    exact find?_settleRows o id task settled hFind
  · intro hPos r hr
    rw [settleRows, mem_modify] at hr
    obtain ⟨r', hr', rfl⟩ := hr
    split
    · show 0 < (writeQuota o r'.toTask task settled).quota
      rcases writeQuota_quota o r'.toTask task settled with hSame | hNew
      · rw [hSame]
        exact hPos r' hr'
      · rw [hNew]
        exact hQuota
    · exact hPos r' hr'

end

/-! ## What one action can do -/

def Copy.task? : Copy → Option SyncTask
  | .absent => none
  | .sweeping t => some t
  | .holding t => some t
  | .saving t => some t
  | .billing t _ _ => some t

/-- A copy of the row with the id: it has a quota, and it is of an open task if it is to be
swept. -/
structure Copy.Of (x : Copy) (id : Int) : Prop where
  task : ∀ t ∈ x.task?, t.key = id ∧ 0 < t.quota
  sweeping : ∀ t ∈ x.sweeping?, t.status.isTerminal = false

def Copy.owes (x : Copy) : Bool := x.refunding?.isSome

/-- Neither a refund nor the save of a refunded failure is left to do. -/
structure Copy.Settled (x : Copy) : Prop where
  owes : x.owes = false
  waits : x.waits = false

theorem settled_absent : Copy.absent.Settled := ⟨rfl, rfl⟩

theorem settled_holding (t : SyncTask) : (Copy.holding t).Settled := ⟨rfl, rfl⟩

theorem settled_sweeping (t : SyncTask) : (Copy.sweeping t).Settled := ⟨rfl, rfl⟩

structure Harmless (rows rows' : Table SyncTask.key) : Prop where
  keeps : Keeps rows rows'
  failed : ∀ id, failed rows' id = true → failed rows id = true

theorem Harmless.refl (rows : Table SyncTask.key) : Harmless rows rows :=
  ⟨Keeps.refl rows, fun _ h => h⟩

theorem harmless_save {rows : Table SyncTask.key} {t : SyncTask}
    (hOpen : openRow rows t.key = true) (hQuota : 0 < t.quota) (hStatus : t.status ≠ .failure) :
    Harmless rows (rows.save t) := by
  refine ⟨keeps_save hOpen hQuota, fun id h => ?_⟩
  by_cases hid : id = t.key
  · rw [hid, failed_save_self hOpen] at h
    exact absurd (of_decide_eq_true h) hStatus
  · rwa [failed_save_of_ne hid] at h

/-- What an action of a pass can do, as far as refunds are concerned: begin a pass; fail nothing;
time out a task of the old system; move a row to `FAILURE` and owe the refund; refund what is
owed; refund a task and have its failure to save; save the failure of a refunded task. -/
inductive Effect (s : State n) : State n → Prop
  | begin (p : Fin n) (phase : Phase) (copies : Int → Copy) (hIdle : s.phases p = .idle)
      (hPhase : phase ≠ .idle) (hCopies : ∀ id, (copies id).Of id ∧ (copies id).Settled) :
      Effect s (s.begin p phase copies)
  | rows (rows : Table SyncTask.key) (hRows : Harmless s.rows rows) : Effect s (s.write rows)
  | touch (c : Fin n × Int) (x : Copy) (rows : Table SyncTask.key) (world : World)
      (hRows : Harmless s.rows rows) (hHeld : s.copies c ≠ .absent)
      (hOld : (s.copies c).Settled) (hNew : x.Settled) (hOf : x.Of c.2) :
      Effect s { (s.write rows).setCopy c x with world := world }
  | legacy (c : Fin n × Int) (rows : Table SyncTask.key) (hRows : Keeps s.rows rows)
      (hOld : (s.copies c).Settled) :
      Effect s (({ s with rows := rows } : State n).setCopy c .absent)
  | win (c : Fin n × Int) (x : Copy) (t : SyncTask) (hHeld : s.copies c ≠ .absent)
      (hOld : (s.copies c).Settled) (hOwes : x.owes = true) (hWaits : x.waits = false)
      (hOf : x.Of c.2) (hKey : t.key = c.2) (hQuota : 0 < t.quota)
      (hOpen : openRow s.rows c.2 = true) (hStatus : t.status = .failure)
      (hNobody : ¬ s.Waiting c.2) :
      Effect s ((s.write (s.rows.save t)).setCopy c x)
  | pay (c : Fin n × Int) (x : Copy) (world : World) (hHeld : s.copies c ≠ .absent)
      (hOld : (s.copies c).owes = true) (hWaits : (s.copies c).waits = false) (hNew : x.Settled)
      (hOf : x.Of c.2) :
      Effect s { s.setCopy c x with
        world := world
        refunds := Function.update s.refunds c.2 (s.refunds c.2 + 1) }
  | prepay (c : Fin n × Int) (x : Copy) (world : World) (hHeld : s.copies c ≠ .absent)
      (hOld : (s.copies c).Settled) (hOwes : x.owes = false) (hWaits : x.waits = true)
      (hOf : x.Of c.2) (hRow : failed s.rows c.2 = false) (hNobody : ¬ s.Waiting c.2) :
      Effect s { s.setCopy c x with
        world := world
        refunds := Function.update s.refunds c.2 (s.refunds c.2 + 1) }
  | saved (c : Fin n × Int) (x : Copy) (t : SyncTask) (hHeld : s.copies c ≠ .absent)
      (hOwes : (s.copies c).owes = false) (hWaits : (s.copies c).waits = true) (hNew : x.Settled)
      (hOf : x.Of c.2) (hKey : t.key = c.2) (hQuota : 0 < t.quota)
      (hOpen : openRow s.rows c.2 = true) (hStatus : t.status = .failure) :
      Effect s ((s.write (s.rows.save t)).setCopy c x)

/-- What every pass keeps about its copies and the rows. -/
structure Sound (s : State n) : Prop where
  idle : ∀ p id, s.phases p = .idle → s.copies (p, id) = .absent
  copies : ∀ c, (s.copies c).Of c.2
  positive : ∀ r ∈ s.rows, 0 < r.quota
  moved : ∀ id, s.moved id = true → failed s.rows id = true

section

variable {s s' : State n} {c : Fin n × Int} {x : Copy}

variable {id : Int}

theorem moved_write (h : Sound s) {rows : Table SyncTask.key} (hKeeps : Keeps s.rows rows)
    (hMoved : (s.write rows).moved id = true) : failed rows id = true := by
  simp only [State.write, Bool.or_eq_true, Bool.and_eq_true] at hMoved
  rcases hMoved with hOld | ⟨-, hNew⟩
  · exact hKeeps.failure id (h.moved id hOld)
  · exact hNew

theorem Sound.of_setCopy (h : Sound s) (hPhases : s'.phases = s.phases)
    (hCopies : s'.copies = Function.update s.copies c x)
    (hHeld : s.copies c ≠ .absent ∨ x = .absent) (hOf : x.Of c.2) (hKeeps : Keeps s.rows s'.rows)
    (hMoved : ∀ id, s'.moved id = true → failed s'.rows id = true) : Sound s' where
  idle p id hIdle := by
    rw [hPhases] at hIdle
    have hAbsent := h.idle p id hIdle
    rw [hCopies]
    by_cases hc : (p, id) = c
    · subst hc
      rw [update_self]
      exact hHeld.resolve_left (not_not_intro hAbsent)
    · rw [update_of_ne hc, hAbsent]
  copies d := by
    rw [hCopies]
    by_cases hd : d = c
    · subst hd
      rwa [update_self]
    · rw [update_of_ne hd]
      exact h.copies d
  positive := hKeeps.positive h.positive
  moved := hMoved

theorem Sound.effect (h : Sound s) (hEffect : Effect s s') : Sound s' := by
  cases hEffect with
  | begin p phase copies hIdle hPhase hCopies =>
    refine ⟨?_, ?_, h.positive, h.moved⟩
    · intro q id hq
      by_cases hqp : q = p
      · subst hqp
        simp only [State.begin, update_self] at hq
        exact absurd hq hPhase
      · simp only [State.begin, update_of_ne hqp] at hq
        simp only [State.begin, hqp, if_false]
        exact h.idle q id hq
    · intro d
      simp only [State.begin]
      split
      · exact (hCopies d.2).1
      · exact h.copies d
  | rows rows hRows =>
    exact ⟨h.idle, h.copies, hRows.keeps.positive h.positive,
      fun id hMoved => moved_write h hRows.keeps hMoved⟩
  | touch c x rows world hRows hHeld hOld hNew hOf =>
    exact h.of_setCopy rfl rfl (Or.inl hHeld) hOf hRows.keeps fun id => moved_write h hRows.keeps
  | legacy c rows hRows hOld =>
    refine h.of_setCopy rfl rfl (Or.inr rfl) ⟨fun t ht => ?_, fun t ht => ?_⟩ hRows ?_
    · cases ht
    · cases ht
    · exact fun id hMoved => hRows.failure id (h.moved id hMoved)
  | win c x t hHeld hOld hOwes hWaits hOf hKey hQuota hOpen hStatus hNobody
  | saved c x t hHeld hOwes hWaits hNew hOf hKey hQuota hOpen hStatus =>
    have hKeeps : Keeps s.rows (s.rows.save t) := keeps_save (hKey ▸ hOpen) hQuota
    exact h.of_setCopy rfl rfl (Or.inl hHeld) hOf hKeeps fun id => moved_write h hKeeps
  | pay c x world hHeld hOld hWaits hNew hOf
  | prepay c x world hHeld hOld hOwes hWaits hOf hRow hNobody =>
    exact h.of_setCopy rfl rfl (Or.inl hHeld) hOf (Keeps.refl s.rows) h.moved

def debt (copies : Fin n × Int → Copy) (c : Fin n × Int) : Option Int :=
  if (copies c).owes then some c.2 else none

/-- A row is due once a pass has moved it to `FAILURE`, or has refunded it and is about to; a pass
owes the refund of a row that it has moved. -/
def ledger (s : State n) : Ledger (Fin n × Int) Int where
  due id := s.moved id = true ∨ s.Waiting id
  owes := debt s.copies
  paid := s.refunds

theorem debt_update (copies : Fin n × Int → Copy) (c : Fin n × Int) (x : Copy) :
    debt (Function.update copies c x) =
      Function.update (debt copies) c (if x.owes then some c.2 else none) := by
  funext d
  by_cases hd : d = c
  · subst hd
    simp [debt]
  · simp [debt, hd]

theorem debt_update_of_not (hOld : (s.copies c).owes = false) (hNew : x.owes = false) :
    debt (Function.update s.copies c x) = debt s.copies := by
  have hNone : debt s.copies c = none := by simp [debt, hOld]
  rw [debt_update, hNew, if_neg (by simp), ← hNone, update_eq_self]

theorem waiting_of_update (hCopies : s'.copies = Function.update s.copies c x) :
    s'.Waiting id ↔ (id = c.2 ∧ x.waits = true) ∨
      ∃ p, (p, id) ≠ c ∧ (s.copies (p, id)).waits = true := by
  simp only [State.Waiting, hCopies]
  constructor
  · rintro ⟨p, hp⟩
    by_cases hc : (p, id) = c
    · subst hc
      rw [update_self] at hp
      exact Or.inl ⟨rfl, hp⟩
    · rw [update_of_ne hc] at hp
      exact Or.inr ⟨p, hc, hp⟩
  · rintro (⟨rfl, hx⟩ | ⟨p, hc, hp⟩)
    · exact ⟨c.1, by simpa using hx⟩
    · exact ⟨p, by rwa [update_of_ne hc]⟩

theorem waiting_cases (c : Fin n × Int) : s.Waiting id ↔
    (id = c.2 ∧ (s.copies c).waits = true) ∨
      ∃ p, (p, id) ≠ c ∧ (s.copies (p, id)).waits = true := by
  have hSelf : s.copies = Function.update s.copies c (s.copies c) :=
    (update_eq_self c s.copies).symm
  exact waiting_of_update hSelf

theorem waiting_update_same (hCopies : s'.copies = Function.update s.copies c x)
    (h : x.waits = (s.copies c).waits) : s'.Waiting id ↔ s.Waiting id := by
  rw [waiting_of_update hCopies, waiting_cases c, h]

theorem waiting_update_set (hCopies : s'.copies = Function.update s.copies c x)
    (hOld : (s.copies c).waits = false) (hNew : x.waits = true) :
    s'.Waiting id ↔ s.Waiting id ∨ id = c.2 := by
  rw [waiting_of_update hCopies, waiting_cases c, hOld, hNew]
  simp only [and_true, Bool.false_eq_true, and_false, false_or]
  exact or_comm

theorem waiting_update_clear (hCopies : s'.copies = Function.update s.copies c x)
    (hOld : (s.copies c).waits = true) (hNew : x.waits = false) :
    s.Waiting id ↔ id = c.2 ∨ s'.Waiting id := by
  rw [waiting_of_update hCopies, waiting_cases c, hOld, hNew]
  simp only [and_true, Bool.false_eq_true, and_false, false_or]

theorem moved_harmless {rows : Table SyncTask.key} (hRows : Harmless s.rows rows) :
    (s.write rows).moved = s.moved := by
  funext id
  have hNone : (!failed s.rows id && failed rows id) = false := by
    cases hFailed : failed rows id with
    | false => exact Bool.and_false _
    | true => rw [hRows.failed id hFailed]; rfl
  simp only [State.write, hNone, Bool.or_false]

variable {t : SyncTask}

theorem moved_save (hOpen : openRow s.rows t.key = true) (hStatus : t.status = .failure) :
    (s.write (s.rows.save t)).moved id = true ↔ s.moved id = true ∨ id = t.key := by
  simp only [State.write, Bool.or_eq_true, Bool.and_eq_true, Bool.not_eq_true']
  by_cases hid : id = t.key
  · subst hid
    simp [not_failed_of_open hOpen, failed_save_self hOpen, hStatus]
  · simp [failed_save_of_ne hid, hid]

theorem ledger_begin (h : Sound s) {p : Fin n} {phase : Phase} {copies : Int → Copy}
    (hIdle : s.phases p = .idle) (hCopies : ∀ id, (copies id).Settled) :
    Ledger.ExactStep (ledger s) (ledger (s.begin p phase copies)) := by
  -- the pass had no copies, and it owes nothing for those it has now
  have hOld : ∀ d : Fin n × Int, d.1 = p → (s.copies d).Settled := by
    intro d hd
    rw [h.idle d.1 d.2 (hd ▸ hIdle)]
    exact settled_absent
  have hCopy : ∀ d, ((s.begin p phase copies).copies d).owes = (s.copies d).owes ∧
      ((s.begin p phase copies).copies d).waits = (s.copies d).waits := by
    intro d
    by_cases hd : d.1 = p
    · simp only [State.begin, hd, if_true]
      exact ⟨(hCopies d.2).owes.trans (hOld d hd).owes.symm,
        (hCopies d.2).waits.trans (hOld d hd).waits.symm⟩
    · simp [State.begin, hd]
  refine .quiet (fun id => ?_) ?_ rfl
  · show s.moved id = true ∨ (s.begin p phase copies).Waiting id ↔ s.moved id = true ∨ s.Waiting id
    simp only [State.Waiting, (hCopy _).2]
  · funext d
    show debt (s.begin p phase copies).copies d = debt s.copies d
    simp only [debt, (hCopy d).1]

theorem ledger_effect (h : Sound s) (hEffect : Effect s s') :
    Ledger.ExactStep (ledger s) (ledger s') := by
  cases hEffect with
  | begin p phase copies hIdle hPhase hCopies =>
    exact ledger_begin h hIdle fun id => (hCopies id).2
  | rows rows hRows =>
    refine .quiet (fun id => ?_) rfl rfl
    show (s.write rows).moved id = true ∨ s.Waiting id ↔ s.moved id = true ∨ s.Waiting id
    rw [moved_harmless hRows]
  | touch c x rows world hRows hHeld hOld hNew hOf =>
    refine .quiet (fun id => ?_) (debt_update_of_not hOld.owes hNew.owes) rfl
    have hMoved : (s.write rows).moved id = true ↔ s.moved id = true := by
      rw [moved_harmless hRows]
    exact or_congr hMoved (waiting_update_same rfl (hNew.waits.trans hOld.waits.symm))
  | legacy c rows hRows hOld =>
    refine .quiet (fun id => ?_) (debt_update_of_not hOld.owes rfl) rfl
    have hSame : (({ s with rows := rows } : State n).setCopy c .absent).Waiting id ↔
        s.Waiting id := waiting_update_same rfl (settled_absent.waits.trans hOld.waits.symm)
    exact or_congr Iff.rfl hSame
  | win c x t hHeld hOld hOwes hWaits hOf hKey hQuota hOpen hStatus hNobody =>
    refine .win c c.2 (fun id => ?_) ?_ (by simp [ledger, debt, hOld.owes]) ?_ rfl
    · have hMoved : (s.write (s.rows.save t)).moved id = true ↔ s.moved id = true ∨ id = c.2 := by
        rw [moved_save (hKey ▸ hOpen) hStatus, hKey]
      have hSame : ((s.write (s.rows.save t)).setCopy c x).Waiting id ↔ s.Waiting id :=
        waiting_update_same rfl (hWaits.trans hOld.waits.symm)
      exact (or_congr hMoved hSame).trans or_right_comm
    · rintro (hMoved | hWaiting)
      · have hFailed := h.moved c.2 hMoved
        rw [not_failed_of_open hOpen] at hFailed
        cases hFailed
      · exact hNobody hWaiting
    · show debt (Function.update s.copies c x) = _
      rw [debt_update, hOwes]
      rfl
  | pay c x world hHeld hOld hWaits hNew hOf =>
    refine .pay c c.2 (fun id => ?_) (by simp [ledger, debt, hOld]) ?_ rfl
    · exact or_congr Iff.rfl (waiting_update_same rfl (hNew.waits.trans hWaits.symm))
    · show debt (Function.update s.copies c x) = _
      rw [debt_update, hNew.owes]
      rfl
  | prepay c x world hHeld hOld hOwes hWaits hOf hRow hNobody =>
    refine .settle c.2 (fun id => ?_) ?_ (debt_update_of_not hOld.owes hOwes) rfl
    · have hWaiting : ({ s.setCopy c x with
          world := world
          refunds := Function.update s.refunds c.2 (s.refunds c.2 + 1) } : State n).Waiting id ↔
            s.Waiting id ∨ id = c.2 := waiting_update_set rfl hOld.waits hWaits
      exact (or_congr Iff.rfl hWaiting).trans or_assoc.symm
    · rintro (hMoved | hWaiting)
      · rw [h.moved c.2 hMoved] at hRow
        cases hRow
      · exact hNobody hWaiting
  | saved c x t hHeld hOwes hWaits hNew hOf hKey hQuota hOpen hStatus =>
    refine .quiet (fun id => ?_) (debt_update_of_not hOwes hNew.owes) rfl
    have hMoved : (s.write (s.rows.save t)).moved id = true ↔ s.moved id = true ∨ id = c.2 := by
      rw [moved_save (hKey ▸ hOpen) hStatus, hKey]
    have hWaiting : s.Waiting id ↔
        id = c.2 ∨ ((s.write (s.rows.save t)).setCopy c x).Waiting id :=
      waiting_update_clear rfl hWaits hNew.waits
    exact (or_congr hMoved Iff.rfl).trans (or_assoc.trans (or_congr Iff.rfl hWaiting.symm))

/-! ## The actions have these effects -/

theorem write_self (s : State n) : s.write s.rows = s := by
  have hMoved := moved_harmless (Harmless.refl s.rows)
  have hSame : s.write s.rows = { s with moved := (s.write s.rows).moved } := rfl
  rw [hSame, hMoved]

theorem of_absent (id : Int) : Copy.absent.Of id where
  task t ht := by cases ht
  sweeping t ht := by cases ht

theorem copy_of (hTask : x.task? = some t) (hSweeping : x.sweeping? = none) (hKey : t.key = id)
    (hQuota : 0 < t.quota) : x.Of id where
  task u hu := by
    rw [hTask] at hu
    cases hu
    exact ⟨hKey, hQuota⟩
  sweeping u hu := by
    rw [hSweeping] at hu
    cases hu

theorem load_of {f : SyncTask → Copy} {tasks : List SyncTask}
    (hf : ∀ t ∈ tasks, (f t).Of t.key ∧ (f t).Settled) (id : Int) :
    (load f tasks id).Of id ∧ (load f tasks id).Settled := by
  unfold load
  split
  · rename_i t hFind
    have hKey := find?_some hFind
    rw [decide_eq_true_eq] at hKey
    rw [← hKey]
    exact hf t (mem_of_find?_eq_some hFind)
  · exact ⟨of_absent id, settled_absent⟩

theorem held_eq {p : Fin n} {platform : Platform} {upstreamID : String}
    (h : s.held p platform upstreamID = some (id, t)) : s.copies (p, id) = .holding t := by
  unfold State.held at h
  split at h
  · split at h
    · rename_i hCopy
      cases h
      exact hCopy
    · cases h
  · cases h

theorem Sound.held (h : Sound s) (hCopy : s.copies c = x) (hTask : x.task? = some t) :
    s.copies c ≠ .absent ∧ t.key = c.2 ∧ 0 < t.quota := by
  refine ⟨?_, (h.copies c).task t (by rw [hCopy, hTask]; rfl)⟩
  intro hAbsent
  rw [← hCopy, hAbsent] at hTask
  cases hTask

theorem effect_readTimedOut (h : Sound s) {p : Fin n} (hIdle : s.phases p = .idle)
    (cutoffUnix : Int) :
    Effect s (s.begin p .sweeping
      (load .sweeping (getTimedOutUnfinishedTasks cutoffUnix 100 s.rows))) := by
  refine .begin p _ _ hIdle nofun (load_of fun t ht => ?_)
  have hMem := mem_filter.mp ((mem_insertionSort _).mp (mem_of_mem_take ht))
  refine ⟨⟨fun u hu => ?_, fun u hu => ?_⟩, settled_sweeping t⟩
  · cases hu
    exact ⟨rfl, h.positive t hMem.1⟩
  · cases hu
    exact Task.timedOut_status hMem.2

theorem effect_read (h : Sound s) {p : Fin n} (hIdle : s.phases p = .idle) (limit : Nat) :
    Effect s (s.begin p (.polling (getAllUnFinishSyncTasks limit s.rows))
      (load .holding (getAllUnFinishSyncTasks limit s.rows))) := by
  refine .begin p _ _ hIdle nofun (load_of fun t ht => ?_)
  have hRow := (mem_getAllUnFinishSyncTasks ht).1
  exact ⟨copy_of rfl rfl rfl (h.positive t hRow), settled_holding t⟩

theorem effect_bulk {o : Write} {ids : List Int} {failReason : Option String}
    (hSafe : o.tookEffect = true → AllFailed s.rows ids) :
    Effect s (s.write (taskBulkUpdateByID o ids failReason s.rows)) :=
  .rows _ ⟨keeps_bulk hSafe, fun _ => failed_of_bulk hSafe⟩

theorem effect_setCopy (hHeld : s.copies c ≠ .absent) (hOld : (s.copies c).Settled)
    (hNew : x.Settled) (hOf : x.Of c.2) (world : World) :
    Effect s { s.setCopy c x with world := world } := by
  have hEffect := Effect.touch c x s.rows world (Harmless.refl s.rows) hHeld hOld hNew hOf
  rwa [write_self] at hEffect

theorem effect_sunoItem (h : Sound s) (hCopy : s.copies c = .holding t)
    (item : Suno.SunoDataResponse) (o : Outcome) (hSafe : SafeItem s c.2 t.toTask item o) :
    Effect s { s.setCopy c (.saving { t with toTask := Suno.applyItem t.toTask item }) with
      world := (Suno.refundItem o t.toTask item s.world).2
      refunds := countRefund s.refunds c.2 (Suno.refundItem o t.toTask item s.world).1 } := by
  have hOld : (s.copies c).Settled := by
    rw [hCopy]
    exact settled_holding t
  obtain ⟨hHeld, hKey, hQuota⟩ := h.held hCopy rfl
  have hOf : (Copy.saving { t with toTask := Suno.applyItem t.toTask item }).Of c.2 :=
    copy_of rfl rfl hKey hQuota
  by_cases hReports : Suno.reportsFailure t.toTask item = true
  · obtain ⟨hStatus, hRow, hNobody, hRefundable⟩ := hSafe hReports
    have hRefund : (Suno.refundItem o t.toTask item s.world).1 = true := by
      rw [Suno.refundItem, if_pos hReports]
      exact Refundable.takes_effect hRefundable hQuota
    rw [hRefund]
    refine .prepay c _ _ hHeld hOld rfl ?_ hOf hRow hNobody
    exact decide_eq_true hStatus
  · have hNone : Suno.refundItem o t.toTask item s.world = (false, s.world) := if_neg hReports
    have hStatus : (Suno.takeFields t.toTask item).status ≠ .failure := by
      intro hFailure
      exact hReports (by simp [Suno.reportsFailure, hFailure])
    have hNew : (Copy.saving { t with toTask := Suno.applyItem t.toTask item }).Settled :=
      ⟨rfl, decide_eq_false hStatus⟩
    rw [hNone]
    exact effect_setCopy hHeld hOld hNew hOf s.world

theorem effect_sunoSave (h : Sound s) (hCopy : s.copies c = .saving t) {o : Write}
    (hOpen : o.tookEffect = true → openRow s.rows c.2 = true)
    (hEffect : t.status = .failure → o.tookEffect = true) :
    Effect s ((s.write (update o s.rows t)).setCopy c (.holding t)) := by
  have hOwes : (s.copies c).owes = false := by
    rw [hCopy]
    rfl
  have hWaits : (s.copies c).waits = decide (t.status = .failure) := by
    rw [hCopy]
    rfl
  obtain ⟨hHeld, hKey, hQuota⟩ := h.held hCopy rfl
  have hOf : (Copy.holding t).Of c.2 := copy_of rfl rfl hKey hQuota
  by_cases hStatus : t.status = .failure
  · rw [update, if_pos (hEffect hStatus)]
    exact .saved c _ t hHeld hOwes (by rw [hWaits]; exact decide_eq_true hStatus)
      (settled_holding t) hOf hKey hQuota (hOpen (hEffect hStatus)) hStatus
  · have hSettled : (s.copies c).Settled := ⟨hOwes, by rw [hWaits]; exact decide_eq_false hStatus⟩
    have hRows : Harmless s.rows (update o s.rows t) := by
      unfold update
      split
      · rename_i hTook
        exact harmless_save (hKey ▸ hOpen hTook) hQuota hStatus
      · exact Harmless.refl s.rows
    exact .touch c _ _ s.world hRows hHeld hSettled (settled_holding t) hOf

/-- The write of a sweep: the row stays and the sweep has not won, or the row was open and is now
`FAILURE`, and the sweep has won unless the answer was lost. -/
theorem effect_sweep (h : Sound s) (hCopy : s.copies c = .sweeping t) (minutes now : Int)
    (o : Write) (hSafe : t.isLegacy = false → o.isLost = false ∧ ¬ s.Waiting c.2) :
    let task : SyncTask := { t with toTask := timeOut minutes now t.toTask }
    Effect s (match updateWithStatus o s.rows task t.status with
      | (rows, .ok true) =>
        (s.writeTimeout t rows).setCopy c
          (if sweepRefunds t.toTask then .billing task .refund 0 else .absent)
      | (rows, _) => (s.writeTimeout t rows).setCopy c .absent) := by
  intro task
  have hOld : (s.copies c).Settled := by
    rw [hCopy]
    exact settled_sweeping t
  obtain ⟨hHeld, hKey, hQuota⟩ := h.held hCopy rfl
  have hOpen : t.status.isTerminal = false := (h.copies c).sweeping t (by rw [hCopy]; rfl)
  -- a sweep that has not written changes its own copy only
  have hLoses : Effect s ((s.writeTimeout t s.rows).setCopy c .absent) := by
    unfold State.writeTimeout
    split
    · exact .legacy c s.rows (Keeps.refl s.rows) hOld
    · exact .touch c .absent s.rows s.world (Harmless.refl s.rows) hHeld hOld settled_absent
        (of_absent c.2)
  unfold updateWithStatus
  rcases saveIf_cases o s.rows (fun r => decide (r.status = t.status)) task with
    (hWrite | ⟨e, hWrite⟩) | ⟨r, hFind, hStatus, hWrite⟩
  · rwa [hWrite]
  · rwa [hWrite]
  · have hRow : openRow s.rows c.2 = true := by
      rw [← hKey]
      refine openRow_iff.mpr ⟨r, hFind, ?_⟩
      rw [of_decide_eq_true hStatus, hOpen]
    by_cases hLegacy : t.isLegacy = true
    · have hKeeps : Keeps s.rows (s.rows.save task) := keeps_save (hKey ▸ hRow) hQuota
      have hTimeout : s.writeTimeout t (s.rows.save task) = { s with rows := s.rows.save task } :=
        if_pos hLegacy
      have hNone : sweepRefunds t.toTask = false := by simp [sweepRefunds, hLegacy]
      have hEffect : Effect s ((s.writeTimeout t (s.rows.save task)).setCopy c .absent) := by
        rw [hTimeout]
        exact .legacy c _ hKeeps hOld
      rcases hWrite with hWrite | ⟨-, e, hWrite⟩
      · rwa [hWrite, hNone]
      · rwa [hWrite]
    · rw [Bool.not_eq_true] at hLegacy
      obtain ⟨hNotLost, hNobody⟩ := hSafe hLegacy
      have hRefunds : sweepRefunds t.toTask = true := by
        have hne : t.quota ≠ 0 := by omega
        simp [sweepRefunds, hLegacy, hne]
      have hTimeout : s.writeTimeout t (s.rows.save task) = s.write (s.rows.save task) :=
        if_neg (by rw [hLegacy]; exact Bool.false_ne_true)
      have hOf : (Copy.billing task .refund 0).Of c.2 := copy_of rfl rfl hKey hQuota
      rcases hWrite with hWrite | ⟨hLost, -⟩
      · rw [hWrite, hRefunds]
        show Effect s ((s.writeTimeout t (s.rows.save task)).setCopy c (.billing task .refund 0))
        rw [hTimeout]
        exact .win c _ task hHeld hOld rfl rfl hOf hKey hQuota hRow rfl hNobody
      · rw [hNotLost] at hLost
        cases hLost

theorem writePolled_cases (o : Write) (rows : Table SyncTask.key) {snap : SyncTask} {x : Polled}
    (hSnap : snap.status.isTerminal = false)
    (hBill : ∀ b, x.bill = some b → x.task.status = b.status) :
    writePolled o rows snap x = (rows, none) ∨
      ∃ r bill, rows.find? x.task.id = some r ∧ r.status = snap.status ∧
        writePolled o rows snap x = (rows.save { snap with toTask := x.task }, bill) ∧
        (bill = x.bill ∨ o.isLost = true ∧ bill = none) := by
  have hCases := saveIf_cases o rows (fun r => decide (r.status = snap.status))
    { snap with toTask := x.task }
  unfold writePolled updateWithStatus
  by_cases hDone : x.task.status.isTerminal = true
  · have hne : snap.status ≠ x.task.status := by
      intro hEq
      rw [hEq, hDone] at hSnap
      cases hSnap
    rw [if_pos ⟨hDone, hne⟩]
    rcases hCases with (hWrite | ⟨e, hWrite⟩) | ⟨r, hFind, hStatus, hWrite | ⟨hLost, e, hWrite⟩⟩
    · rw [hWrite]
      exact Or.inl rfl
    · rw [hWrite]
      exact Or.inl rfl
    · rw [hWrite]
      exact Or.inr ⟨r, _, hFind, of_decide_eq_true hStatus, rfl, Or.inl rfl⟩
    · rw [hWrite]
      exact Or.inr ⟨r, none, hFind, of_decide_eq_true hStatus, rfl, Or.inr ⟨hLost, rfl⟩⟩
  · have hNone := bill_eq_none hBill hDone
    rw [if_neg (fun hBoth => hDone hBoth.1), hNone]
    split
    · rcases hCases with (hWrite | ⟨e, hWrite⟩) | ⟨r, hFind, hStatus, hWrite | ⟨-, e, hWrite⟩⟩
      · rw [hWrite]
        exact Or.inl rfl
      · rw [hWrite]
        exact Or.inl rfl
      · rw [hWrite]
        exact Or.inr ⟨r, none, hFind, of_decide_eq_true hStatus, rfl, Or.inl rfl⟩
      · rw [hWrite]
        exact Or.inr ⟨r, none, hFind, of_decide_eq_true hStatus, rfl, Or.inl rfl⟩
    · exact Or.inl rfl

theorem unwritten_task (t : Task) (r : VideoResponse) :
    (unwritten t r).id = t.id ∧ (unwritten t r).quota = t.quota := by
  unfold unwritten
  split
  · exact ⟨rfl, rfl⟩
  · split <;> exact ⟨rfl, rfl⟩

theorem settled_afterWritten {task : SyncTask} {bill : Option Bill} (totalTokens : Int)
    (h : ∀ b, bill = some b → task.status = b.status) (hStatus : task.status ≠ .failure) :
    (afterWritten task totalTokens bill).Settled := by
  cases bill with
  | none => exact settled_holding task
  | some b =>
    cases b with
    | refund => exact absurd (h .refund rfl) hStatus
    | settle => exact ⟨rfl, rfl⟩

theorem afterWritten_of {task : SyncTask} (totalTokens : Int) (bill : Option Bill)
    (hKey : task.key = id) (hQuota : 0 < task.quota) :
    (afterWritten task totalTokens bill).Of id := by
  cases bill <;> exact copy_of rfl rfl hKey hQuota

theorem effect_videoPoll (h : Sound s) (hCopy : s.copies c = .holding t) {cfg : Async.Config}
    {now : Int} {r : VideoResponse} {y : Polled} (o : Write)
    (hPoll : pollTask cfg now t.toTask r = some y) (hOpen : t.status.isTerminal = false)
    (hSafe : y.task.status = .failure → o.isLost = false ∧ ¬ s.Waiting c.2) :
    Effect s ((s.write (writePolled o s.rows t y).1).setCopy c
      (afterWritten { t with toTask := y.task } y.totalTokens (writePolled o s.rows t y).2)) := by
  have hOld : (s.copies c).Settled := by
    rw [hCopy]
    exact settled_holding t
  obtain ⟨hHeld, hKey, hQuota⟩ := h.held hCopy rfl
  obtain ⟨⟨hId, hSameQuota⟩, hBill, hRefund⟩ := pollTask_some hPoll
  have hNewKey : ({ t with toTask := y.task } : SyncTask).key = c.2 := hId.trans hKey
  have hNewQuota : 0 < y.task.quota := by
    rw [hSameQuota]
    exact hQuota
  rcases writePolled_cases o s.rows hOpen hBill with
    hNothing | ⟨row, bill, hFind, hStatus, hWrite, hBilled⟩
  · rw [hNothing]
    exact .touch c _ s.rows s.world (Harmless.refl s.rows) hHeld hOld (settled_holding _)
      (copy_of rfl rfl hNewKey hNewQuota)
  · rw [hWrite]
    have hOf := afterWritten_of y.totalTokens bill hNewKey hNewQuota
    have hRow : openRow s.rows c.2 = true := by
      rw [← hNewKey]
      exact openRow_iff.mpr ⟨row, hFind, by rw [hStatus, hOpen]⟩
    by_cases hFailure : y.task.status = .failure
    · obtain ⟨hNotLost, hNobody⟩ := hSafe hFailure
      have hDue : bill = some .refund := by
        rcases hBilled with hAsked | ⟨hLost, -⟩
        · rw [hAsked]
          exact hRefund hFailure (by omega)
        · rw [hNotLost] at hLost
          cases hLost
      rw [hDue] at hOf ⊢
      exact .win c _ _ hHeld hOld rfl rfl hOf hNewKey hNewQuota hRow hFailure hNobody
    · have hSettled : (afterWritten { t with toTask := y.task } y.totalTokens bill).Settled := by
        refine settled_afterWritten y.totalTokens (fun b hb => ?_) hFailure
        rcases hBilled with hAsked | ⟨-, hNone⟩
        · exact hBill b (hAsked ▸ hb)
        · rw [hNone] at hb
          cases hb
      have hRows : Harmless s.rows (s.rows.save { t with toTask := y.task }) :=
        harmless_save (by rw [hNewKey]; exact hRow) hNewQuota hFailure
      exact .touch c _ _ s.world hRows hHeld hOld hSettled hOf

theorem effect_refund (h : Sound s) {totalTokens : Int}
    (hCopy : s.copies c = .billing t .refund totalTokens) (world : World) :
    Effect s { s.setCopy c (.holding t) with
      world := world
      refunds := Function.update s.refunds c.2 (s.refunds c.2 + 1) } := by
  obtain ⟨hHeld, hKey, hQuota⟩ := h.held hCopy rfl
  refine .pay c _ world hHeld ?_ ?_ (settled_holding t) (copy_of rfl rfl hKey hQuota)
  · rw [hCopy]
    rfl
  · rw [hCopy]
    rfl

theorem effect_settle (h : Sound s) {totalTokens : Int}
    (hCopy : s.copies c = .billing t .settle totalTokens) (cfg : Pricing.Settings) (o : Outcome)
    (adjusted : Int) (world : World) :
    let settled := (settleTaskBillingOnComplete cfg o adjusted totalTokens t.toTask s.world).1
    Effect s { (s.write (settleRows o s.rows c.2 t.toTask settled)).setCopy c
      (.holding { t with toTask := settled }) with world := world } := by
  intro settled
  have hOld : (s.copies c).Settled := by
    rw [hCopy]
    exact ⟨rfl, rfl⟩
  obtain ⟨hHeld, hKey, hQuota⟩ := h.held hCopy rfl
  have hSettled : settled.id = t.id ∧ 0 < settled.quota := by
    rcases settleTaskBillingOnComplete_task cfg o adjusted totalTokens t.toTask s.world with
      hSame | ⟨quota, hPos, hNew⟩
    · rw [show settled = t.toTask from hSame]
      exact ⟨rfl, hQuota⟩
    · rw [show settled = { t.toTask with quota := quota } from hNew]
      exact ⟨rfl, hPos⟩
  have hRows : Harmless s.rows (settleRows o s.rows c.2 t.toTask settled) := by
    refine ⟨keeps_settleRows o c.2 t.toTask hSettled.2, fun id hFailed => ?_⟩
    rwa [failed_settleRows] at hFailed
  exact .touch c _ _ world hRows hHeld hOld (settled_holding _)
    (copy_of rfl rfl (hSettled.1.trans hKey) hSettled.2)

theorem step_effect (cfg : Config) (h : Sound s) {a : Action n} (ha : a.ofPass = true)
    (hSafe : Safe cfg s a) : step cfg s a = s ∨ Effect s (step cfg s a) := by
  cases a with
  | readTimedOut p cutoffUnix =>
    simp only [step]
    split
    · rename_i hIdle
      split
      · exact Or.inr (effect_readTimedOut h hIdle cutoffUnix)
      · exact Or.inl rfl
    · exact Or.inl rfl
  | sweep p id now o =>
    simp only [step]
    split
    · rename_i t hCopy
      right
      refine effect_sweep h hCopy cfg.taskTimeoutMinutes now o ?_
      exact hSafe t (by rw [hCopy]; rfl)
    · exact Or.inl rfl
  | read p =>
    simp only [step]
    split
    · rename_i hIdle
      exact Or.inr (effect_read h hIdle cfg.taskQueryLimit)
    · exact Or.inl rfl
  | failNull p platform o => exact Or.inr (effect_bulk hSafe)
  | channelMissing p platform channelId o =>
    simp only [step]
    split
    · exact Or.inl rfl
    · rename_i reason hReason
      refine Or.inr (effect_bulk (hSafe ?_))
      rintro rfl
      cases hReason
  | sunoItem p item o =>
    simp only [step]
    split
    · exact Or.inl rfl
    · rename_i id t hFound
      split
      · rename_i hNeeds
        exact Or.inr (effect_sunoItem h (held_eq hFound) item.toSunoDataResponse o
          (hSafe (id, t) hFound hNeeds))
      · exact Or.inl rfl
  | sunoSave p id o =>
    simp only [step]
    split
    · rename_i t hCopy
      obtain ⟨hOpen, hTook⟩ := hSafe t (by rw [hCopy]; rfl)
      exact Or.inr (effect_sunoSave h hCopy hOpen hTook)
    · exact Or.inl rfl
  | videoPoll p text upstreamID r now o =>
    simp only [step]
    split
    · exact Or.inl rfl
    · rename_i id t hFound
      obtain ⟨hOpen, hFails⟩ := hSafe (id, t) hFound
      have hCopy := held_eq hFound
      right
      split
      · obtain ⟨hHeld, hKey, hQuota⟩ := h.held hCopy rfl
        obtain ⟨hId, hSame⟩ := unwritten_task t.toTask r
        refine effect_setCopy hHeld ?_ (settled_holding _) ?_ s.world
        · rw [hCopy]
          exact settled_holding t
        · refine copy_of rfl rfl (hId.trans hKey) ?_
          show 0 < (unwritten t.toTask r).quota
          rw [hSame]
          exact hQuota
      · rename_i y hPoll
        exact effect_videoPoll h hCopy o hPoll hOpen (hFails y hPoll)
  | bill p id adjusted o =>
    simp only [step]
    split
    · rename_i t totalTokens hCopy
      have hRefundable : Refundable o t.toTask s.world := hSafe t (by rw [hCopy]; rfl)
      have hRefunds := hRefundable.takes_effect (h.held hCopy rfl).2.2
      right
      rw [hRefunds]
      exact effect_refund h hCopy _
    · rename_i t totalTokens hCopy
      exact Or.inr (effect_settle h hCopy cfg.settings o adjusted _)
    · exact Or.inl rfl
  | other row => cases ha

/-! ## Every failure is refunded once -/

structure Start (s : State n) : Prop where
  idle : ∀ p, s.phases p = .idle
  absent : ∀ c, s.copies c = .absent
  positive : ∀ r ∈ s.rows, 0 < r.quota
  unmoved : ∀ id, s.moved id = false
  unpaid : ∀ id, s.refunds id = 0

structure Inv (s : State n) : Prop where
  sound : Sound s
  once : (ledger s).Once
  covered : (ledger s).Covered

theorem Start.inv (h : Start s) : Inv s := by
  have hSettled : ∀ c, (s.copies c).Settled := by
    intro c
    rw [h.absent c]
    exact settled_absent
  refine ⟨⟨fun p id _ => h.absent (p, id), fun c => ?_, h.positive, fun id hMoved => ?_⟩, ?_, ?_⟩
  · rw [h.absent c]
    exact of_absent c.2
  · rw [h.unmoved id] at hMoved
    cases hMoved
  · refine Ledger.Once.initial (fun c => ?_) h.unpaid
    simp [ledger, debt, (hSettled c).owes]
  · rintro id (hMoved | ⟨p, hWaits⟩)
    · rw [h.unmoved id] at hMoved
      cases hMoved
    · rw [(hSettled (p, id)).waits] at hWaits
      cases hWaits

theorem Sound.other (h : Sound s) {row : SyncTask}
    (hSafe : failed s.rows row.key = true → row.status = .failure) (hQuota : 0 < row.quota) :
    Sound { s with rows := s.rows.save row } := by
  refine ⟨h.idle, h.copies, fun r hr => ?_, fun id hMoved => ?_⟩
  · rcases eq_or_mem_of_mem_save hr with rfl | hr
    · exact hQuota
    · exact h.positive r hr
  · have hFailed := h.moved id hMoved
    by_cases hid : id = row.key
    · subst hid
      obtain ⟨r, hFind, -⟩ := failed_iff.mp hFailed
      exact failed_iff.mpr ⟨row, find?_save_self rfl hFind, hSafe hFailed⟩
    · exact (failed_save_of_ne hid).trans hFailed

theorem Inv.step {cfg : Config} {a : Action n} (h : Inv s) (hSafe : Safe cfg s a) :
    Inv (step cfg s a) := by
  cases ha : a.ofPass with
  | true =>
    rcases step_effect cfg h.sound ha hSafe with hSame | hEffect
    · rwa [hSame]
    · have hStep := ledger_effect h.sound hEffect
      exact ⟨h.sound.effect hEffect, h.once.exactStep hStep, h.covered.exactStep hStep⟩
  | false =>
    cases a with
    | other row => exact ⟨h.sound.other hSafe.1 hSafe.2, h.once, h.covered⟩
    | _ => cases ha

end

/-! ## Runs -/

def before (rows : Table SyncTask.key) : State 1 :=
  ⟨rows, fun _ => .idle, fun _ => .absent, sampleWorld 300, fun _ => false, fun _ => 0⟩

end Qapi.Async.Polling
