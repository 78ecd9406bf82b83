import Qapi.Core.Table
import Qapi.Async.Basic

/-!
# The activation queue

The tables of `model/activation_queue.go`, a target per upstream account or channel and
jobs that activate the window of a target when it is reset, and the statements on them.
`target_key` and `dedupe_key` are unique; a job's dedupe key is made of the key of its
target and the reset time that the job is for.
-/

namespace Qapi.Activation

open Qapi.Core
open Async (Write)

/-- `ActivationJobStatus`. -/
inductive JobStatus
  | pending
  | running
  | succeeded
  | failed
  | skipped
  | cancelled
deriving DecidableEq, Repr

/-- The source types; `other` is a text that the program has no name for. -/
inductive SourceType
  | cpaAccount
  | codexChannel
  | other (text : String)
deriving DecidableEq, Repr

/-- `source_type` with `source_id`, which for a channel is the decimal text of its id. -/
inductive Source
  | cpaAccount (authIndex : String)
  | codexChannel (channelID : Int)
  | other (sourceType sourceID : String)
deriving DecidableEq, Repr

def Source.type : Source → SourceType
  | .cpaAccount _ => .cpaAccount
  | .codexChannel _ => .codexChannel
  | .other sourceType _ => .other sourceType

/-- `ActivationTarget`. -/
structure Target where
  id : Int
  targetKey : String
  source : Source
  displayName : String
  planType : String
  enabled : Bool
  autoManaged : Bool
  available : Bool
  windowSeconds : Int
  resetAt : Int
  lastSeenAt : Int
  lastActivatedAt : Int
  lastStatus : String
  lastError : String
  metadata : String
  createdAt : Int
  updatedAt : Int
deriving DecidableEq, Repr

/-- `ActivationJob`, without the random `job_id`. -/
structure Job where
  id : Int
  targetID : Int
  dedupeKey : String
  scheduledAt : Int
  status : JobStatus
  trigger : String
  attempt : Int
  maxAttempts : Int
  startedAt : Int
  finishedAt : Int
  previousResetAt : Int
  newResetAt : Int
  result : String
  error : String
  createdAt : Int
  updatedAt : Int
deriving DecidableEq, Repr

structure Db where
  targets : Indexed Target.id Target.targetKey
  jobs : Indexed Job.id Job.dedupeKey

def Db.empty : Db := ⟨⟨Table.empty, .nil⟩, ⟨Table.empty, .nil⟩⟩

/-- An update of targets, which sets neither of the keys. -/
abbrev TargetEdit := Indexed.Edit Target.id Target.targetKey

/-- An update of jobs, which sets neither of the keys. -/
abbrev JobEdit := Indexed.Edit Job.id Job.dedupeKey

def Db.updateTargets (db : Db) (p : Target → Bool) (e : TargetEdit) : Db :=
  { db with targets := db.targets.update p e }

def Db.updateJobs (db : Db) (p : Job → Bool) (e : JobEdit) : Db :=
  { db with jobs := db.jobs.update p e }

/-! ## Targets -/

/-- The columns that `UpsertActivationTarget` writes over a stored row. -/
def TargetEdit.upsert (new : Target) : TargetEdit where
  set t :=
    { t with
      source := new.source
      displayName := new.displayName
      planType := new.planType
      available := new.available
      windowSeconds := new.windowSeconds
      resetAt := new.resetAt
      lastSeenAt := new.lastSeenAt
      metadata := new.metadata
      updatedAt := new.updatedAt }
  key_set _ := rfl
  index_set _ := rfl

/-- `UpsertActivationTarget`, for a key that is not empty. -/
def Db.upsertActivationTarget (db : Db) (new : Target) : Db :=
  match db.targets.findIndex? new.targetKey with
  | some _ => db.updateTargets (fun t => t.targetKey = new.targetKey) (.upsert new)
  | none =>
    match db.targets.insert { new with id := nextId (db.targets.rows.map Target.id) } with
    | some targets => { db with targets := targets }
    | none => db

def Db.getActivationTargetByKey (db : Db) (targetKey : String) : Option Target :=
  db.targets.findIndex? targetKey

def Db.getActivationTarget (db : Db) (id : Int) : Option Target := db.targets.find? id

def TargetEdit.enable (enabled : Bool) (now : Int) : TargetEdit where
  set t := { t with enabled := enabled, updatedAt := now }
  key_set _ := rfl
  index_set _ := rfl

def Db.setActivationTargetEnabled (db : Db) (now id : Int) (enabled : Bool) : Db :=
  db.updateTargets (fun t => t.id = id) (.enable enabled now)

def TargetEdit.result (status errorMessage : String) (resetAt activatedAt now : Int) :
    TargetEdit where
  set t :=
    { t with
      lastStatus := status
      lastError := errorMessage
      resetAt := resetAt
      updatedAt := now
      lastActivatedAt := if activatedAt > 0 then activatedAt else t.lastActivatedAt }
  key_set _ := rfl
  index_set _ := rfl

def Db.updateActivationTargetResult (db : Db) (now id : Int) (status errorMessage : String)
    (resetAt activatedAt : Int) : Db :=
  db.updateTargets (fun t => t.id = id) (.result status errorMessage resetAt activatedAt now)

/-! ## Jobs -/

/-- `fmt.Sprintf("%s:%d", targetKey, resetAt)`. -/
def dedupeKey (targetKey : String) (resetAt : Int) : String :=
  targetKey ++ ":" ++ toString resetAt

/-- The job that `ScheduleActivationJob` inserts. -/
def newJob (now id targetID : Int) (targetKey : String) (resetAt scheduledAt : Int)
    (trigger : String) : Job where
  id := id
  targetID := targetID
  dedupeKey := dedupeKey targetKey resetAt
  scheduledAt := if scheduledAt ≤ 0 then now else scheduledAt
  status := .pending
  trigger := trigger
  attempt := 0
  maxAttempts := 4
  startedAt := 0
  finishedAt := 0
  previousResetAt := resetAt
  newResetAt := 0
  result := ""
  error := ""
  createdAt := now
  updatedAt := now

/-- How the statements of `ScheduleActivationJob` end: the insert, and the lookup after an insert
that has failed. -/
structure ScheduleOutcome where
  create : Write
  find : Option Err
deriving DecidableEq, Repr

def duplicateKey : Err := .msg "UNIQUE constraint failed"

def Db.createJob (db : Db) (o : Write) (job : Job) : Db × Option Err :=
  match db.jobs.insert job with
  | some jobs => ({ db with jobs := o.after jobs db.jobs }, o.error?)
  | none => (db, some (o.error?.getD duplicateKey))

/-- `ScheduleActivationJob`: the tables, and the job for the reset time with whether it is new. -/
def Db.scheduleActivationJob (db : Db) (o : ScheduleOutcome) (now targetID : Int)
    (targetKey : String)
    (resetAt scheduledAt : Int) (trigger : String) : Db × Except Err (Job × Bool) :=
  if targetID ≤ 0 ∨ targetKey = "" then (db, .error (.msg "activation target is required"))
  else
    let job := newJob now (nextId (db.jobs.rows.map Job.id))
      targetID targetKey resetAt scheduledAt trigger
    match db.createJob o.create job with
    | (db, none) => (db, .ok (job, true))
    | (db, some e) =>
      match o.find, db.jobs.findIndex? (dedupeKey targetKey resetAt) with
      | none, some existing => (db, .ok (existing, false))
      | _, _ => (db, .error e)

def JobEdit.cancel (now : Int) : JobEdit where
  set j := { j with status := .cancelled, finishedAt := now, updatedAt := now }
  key_set _ := rfl
  index_set _ := rfl

/-- `CancelPendingActivationJobsForTarget`. -/
def Db.cancelPendingActivationJobsForTarget (db : Db) (now targetID : Int)
    (exceptDedupeKey : String) : Db :=
  db.updateJobs
    (fun j => j.targetID = targetID && j.status = .pending &&
      (exceptDedupeKey = "" || j.dedupeKey ≠ exceptDedupeKey))
    (.cancel now)

def TargetEdit.missing (now : Int) : TargetEdit where
  set t := { t with available := false, lastStatus := "missing", updatedAt := now }
  key_set _ := rfl
  index_set _ := rfl

/-- The targets that `MarkMissingActivationTargetsUnavailable` selects. -/
def Target.isMissing (sourceType : SourceType) (seen : List String) (t : Target) : Bool :=
  t.source.type = sourceType && (seen.isEmpty || !seen.contains t.targetKey)

/-- `MarkMissingActivationTargetsUnavailable`, which is one transaction. -/
def Db.markMissingActivationTargetsUnavailable (db : Db) (now : Int) (sourceType : SourceType)
    (seen : List String) : Db :=
  let targetIDs := (db.targets.rows.filter (Target.isMissing sourceType seen)).map Target.id
  { targets := db.targets.update (fun t => targetIDs.contains t.id) (TargetEdit.missing now)
    jobs := db.jobs.update (fun j => targetIDs.contains j.targetID && j.status = .pending)
      (JobEdit.cancel now) }

def JobEdit.finish (status : JobStatus) (resultText errorMessage : String) (newResetAt now : Int) :
    JobEdit where
  set j :=
    { j with
      status := status
      result := resultText
      error := errorMessage
      newResetAt := newResetAt
      finishedAt := now
      updatedAt := now }
  key_set _ := rfl
  index_set _ := rfl

def Db.finishActivationJob (db : Db) (now id : Int) (status : JobStatus)
    (resultText errorMessage : String) (newResetAt : Int) : Db :=
  db.updateJobs (fun j => j.id = id) (.finish status resultText errorMessage newResetAt now)

def JobEdit.retry (scheduledAt : Int) (errorMessage : String) (now : Int) : JobEdit where
  set j :=
    { j with
      status := .pending
      scheduledAt := scheduledAt
      error := errorMessage
      startedAt := 0
      updatedAt := now }
  key_set _ := rfl
  index_set _ := rfl

def Db.retryActivationJob (db : Db) (now id scheduledAt : Int) (errorMessage : String) : Db :=
  db.updateJobs (fun j => j.id = id) (.retry scheduledAt errorMessage now)

/-- The condition of the first query of `ClaimNextDueActivationJob`. -/
def Job.due (now : Int) (j : Job) : Bool := j.status = .pending && decide (j.scheduledAt ≤ now)

/-- `ORDER BY scheduled_at asc, id asc`. -/
def Job.before (i j : Job) : Bool :=
  decide (i.scheduledAt < j.scheduledAt) || (i.scheduledAt = j.scheduledAt && decide (i.id ≤ j.id))

def Db.nextDue (db : Db) (now : Int) : Option Job :=
  ((db.jobs.rows.filter (Job.due now)).insertionSort fun i j => i.before j = true).head?

def JobEdit.claim (now : Int) : JobEdit where
  set j :=
    { j with status := .running, startedAt := now, attempt := j.attempt + 1, updatedAt := now }
  key_set _ := rfl
  index_set _ := rfl

/-- How the statements of `ClaimNextDueActivationJob` end. -/
structure ClaimOutcome where
  find : Option Err
  update : Write
  reload : Option Err
deriving DecidableEq, Repr

/-- The guarded update of `ClaimNextDueActivationJob`. -/
def Db.claimJob (db : Db) (now id : Int) : Db :=
  db.updateJobs (fun j => j.id = id && j.status = .pending) (.claim now)

def Db.claimable (db : Db) (id : Int) : Bool :=
  db.jobs.rows.any fun j => j.id = id && j.status = .pending

/-- `ClaimNextDueActivationJob`, with nothing in between its statements. -/
def Db.claimNextDueActivationJob (db : Db) (o : ClaimOutcome) (now : Int) :
    Db × Except Err (Option Job) :=
  match o.find, db.nextDue now with
  | some e, _ => (db, .error e)
  | none, none => (db, .ok none)
  | none, some job =>
    let claimed := o.update.after (db.claimJob now job.id) db
    match o.update.error?, o.reload with
    | some e, _ => (claimed, .error e)
    | none, some e => (claimed, if db.claimable job.id then .error e else .ok none)
    | none, none => (claimed, .ok (if db.claimable job.id then claimed.jobs.find? job.id else none))

def JobEdit.recover (now : Int) : JobEdit where
  set j :=
    { j with
      status := .pending
      scheduledAt := now
      error := "stale execution recovered"
      startedAt := 0
      updatedAt := now }
  key_set _ := rfl
  index_set _ := rfl

/-- The condition of `ResetStaleActivationJobs`. -/
def Job.stale (staleBefore : Int) (j : Job) : Bool :=
  j.status = .running && decide (0 < j.startedAt) && decide (j.startedAt < staleBefore)

def Db.resetStaleActivationJobs (db : Db) (now staleBefore : Int) : Db :=
  db.updateJobs (Job.stale staleBefore) (.recover now)

def JobEdit.runNow (now : Int) : JobEdit where
  set j :=
    { j with
      status := .pending
      scheduledAt := now
      trigger := "manual"
      error := ""
      finishedAt := 0
      updatedAt := now }
  key_set _ := rfl
  index_set _ := rfl

def Db.runActivationJobNow (db : Db) (now id : Int) : Db :=
  db.updateJobs (fun j => j.id = id && (j.status = .pending || j.status = .failed)) (.runNow now)

def JobEdit.snooze (scheduledAt now : Int) : JobEdit where
  set j := { j with scheduledAt := scheduledAt, updatedAt := now }
  key_set _ := rfl
  index_set _ := rfl

def Db.snoozeActivationJob (db : Db) (now id scheduledAt : Int) : Db :=
  db.updateJobs (fun j => j.id = id && j.status = .pending) (.snooze scheduledAt now)

def Db.skipActivationJob (db : Db) (now id : Int) : Db :=
  db.finishActivationJob now id .skipped "manually skipped" "" 0

def TargetEdit.archive (now : Int) : TargetEdit where
  set t :=
    { t with enabled := false, available := false, lastStatus := "archived", updatedAt := now }
  key_set _ := rfl
  index_set _ := rfl

/-- `DisableActivationSource`, with the outcomes of the two statements for each target. -/
def Db.disableActivationSource (db : Db) (now : Int) (source : Source)
    (outcomes : List (Write × Write)) : Db :=
  disable ((db.targets.rows.filter fun t => t.source = source).map Target.id) outcomes db
where
  /-- The loop over the targets, which an error ends. -/
  disable : List Int → List (Write × Write) → Db → Db
    | id :: ids, (o, o') :: outcomes, db =>
      let db := o.after (db.updateTargets (fun t => t.id = id) (.archive now)) db
      if o.error?.isSome then db
      else
        let db := o'.after (db.cancelPendingActivationJobsForTarget now id "") db
        if o'.error?.isSome then db else disable ids outcomes db
    | _, _, db => db

end Qapi.Activation
