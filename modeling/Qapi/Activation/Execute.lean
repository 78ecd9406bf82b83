import Qapi.Activation.Reconcile

/-!
# Execution of an activation job

`executeActivationJob` probes the account or channel of the job's target, activates its
window if it is due, and writes the outcome. When the window has moved on, it reconciles
the one snapshot that it has. The reconciliation takes a list of one target for all that
there are of the source type: every other target of the type is marked missing, and the
pending jobs of those are cancelled.
-/

namespace Qapi.Activation

open Qapi.Core List Indexed
open Async (Write)

structure Probe where
  displayName : String
  planType : String
  available : Bool
  windowSeconds : Int
  resetAt : Int
  metadata : String
deriving DecidableEq, Repr

/-- The key of the target of a source, given the digest of an account's index. -/
def Source.key (hash : String → String) : Source → Except Err String
  | .cpaAccount authIndex => .ok ("cpa:" ++ hash authIndex)
  | .codexChannel channelID => .ok ("channel:" ++ toString channelID)
  | .other sourceType _ => .error (.msg ("unsupported activation source: " ++ sourceType))

def Probe.snapshot (p : Probe) (source : Source) (targetKey : String) : Snapshot where
  targetKey := targetKey
  source := source
  displayName := p.displayName
  planType := p.planType
  available := p.available
  windowSeconds := p.windowSeconds
  resetAt := p.resetAt
  metadata := p.metadata

/-- `getActivationSnapshot`, with the outcome of the probe. -/
def getActivationSnapshot (hash : String → String) (target : Target) (probe : Except Err Probe) :
    Except Err Snapshot := do
  let key ← target.source.key hash
  let p ← probe
  return p.snapshot target.source key

/-- `activateTarget`, with the outcome of the request. -/
def activateTarget (target : Target) (sent : Option Err) : Option Err :=
  match target.source with
  | .other sourceType _ => some (.msg ("unsupported activation source: " ++ sourceType))
  | _ => sent

/-- What an execution meets: the probes, the request, the clock, and how the statements end. -/
structure Execution where
  get : Option Err
  probe : Except Err Probe
  now : Int
  sent : Option Err
  verify : Except Err Probe
  retryNow : Int
  finishNow : Int
  finish : Write
  resultNow : Int
  activatedAt : Int
  result : Write
  turnNow : Int
  upsert : Write
  getByKey : Option Err
  schedule : ScheduleOutcome
  cancel : Write
  markNow : Int
  mark : Write

def Execution.turn (e : Execution) (s : Snapshot) : Turn :=
  ⟨s, e.turnNow, e.upsert, e.getByKey, e.schedule, e.cancel⟩

inductive Verdict
  | retry (scheduledAt : Int) (errorMessage : String)
  | skip (resultText : String)
  | fail (errorMessage : String)
  | renew (target : Target) (snapshot : Snapshot) (status : JobStatus)
      (resultText targetStatus : String) (activatedAt : Int)
deriving DecidableEq, Repr

def retryDelay (attempt : Int) : Int :=
  if attempt - 1 ≤ 0 then 60 else if attempt - 1 = 1 then 180 else 600

/-- `finishActivationFailure`. -/
def finishActivationFailure (job : Job) (now : Int) (runErr : String) : Verdict :=
  if job.attempt < job.maxAttempts then .retry (now + retryDelay job.attempt) runErr
  else .fail runErr

/-- The decisions of `executeActivationJob`, given the target that is read. -/
def verdict (hash : String → String) (e : Execution) (job : Job) (target : Option Target) :
    Verdict :=
  let failure := finishActivationFailure job e.retryNow
  match e.get, target with
  | some err, _ => failure ("activation target unavailable: " ++ err.text)
  | none, none => failure "activation target unavailable: %!w(<nil>)"
  | none, some target =>
    if !target.enabled || !target.available then .skip "target disabled or unavailable"
    else
      match getActivationSnapshot hash target e.probe with
      | .error err => failure err.text
      | .ok snapshot =>
        let manual := decide (job.trigger = "manual")
        if !manual && decide (snapshot.resetAt > e.now + activationWindowGrace) then
          if snapshot.resetAt > job.previousResetAt + 60 then
            .renew target snapshot .skipped "window already activated by normal traffic"
              "traffic_activated" 0
          else .retry (snapshot.resetAt + activationWindowGrace) "window is not due yet"
        else
          match activateTarget target e.sent with
          | some err => failure err.text
          | none =>
            match getActivationSnapshot hash target e.verify with
            | .error err => failure ("warm-up sent but verification failed: " ++ err.text)
            | .ok verified =>
              if !manual && decide (verified.resetAt ≤ snapshot.resetAt) then
                failure "warm-up did not advance the activation window"
              else .renew target verified .succeeded "activation ping succeeded" "succeeded"
                e.activatedAt

def Verdict.writeJob (now id : Int) (db : Db) : Verdict → Db
  | .retry scheduledAt errorMessage => db.retryActivationJob now id scheduledAt errorMessage
  | .skip resultText => db.finishActivationJob now id .skipped resultText "" 0
  | .fail errorMessage => db.finishActivationJob now id .failed "" errorMessage 0
  | .renew _ snapshot status resultText _ _ =>
    db.finishActivationJob now id status resultText "" snapshot.resetAt

/-- `executeActivationJob`; the errors of its statements are ignored. -/
def executeActivationJob (hash : String → String) (e : Execution) (job : Job) (db : Db) : Db :=
  let outcome := verdict hash e job (db.getActivationTarget job.targetID)
  let db := e.finish.after (outcome.writeJob e.finishNow job.id db) db
  match outcome with
  | .retry _ _ => db
  | .skip _ => db
  | .fail errorMessage =>
    e.result.after (db.updateActivationTargetResult e.resultNow job.targetID "failed" errorMessage
      job.previousResetAt 0) db
  | .renew target snapshot _ _ targetStatus activatedAt =>
    let db := e.result.after (db.updateActivationTargetResult e.resultNow target.id targetStatus ""
      snapshot.resetAt activatedAt) db
    (reconcileActivationSnapshots [e.turn snapshot] e.markNow e.mark target.source.type db).db

/-! ## What is left alone -/

/-- The rows of the other targets and the jobs of the other targets are as they were. -/
structure Spares (id : Int) (db db' : Db) : Prop where
  targets : ∀ t : Target, t.id ≠ id → (t ∈ db'.targets.rows ↔ t ∈ db.targets.rows)
  jobs : ∀ j : Job, j.targetID ≠ id → (j ∈ db'.jobs.rows ↔ j ∈ db.jobs.rows)

theorem Spares.refl (id : Int) (db : Db) : Spares id db db :=
  ⟨fun _ _ => Iff.rfl, fun _ _ => Iff.rfl⟩

variable {db : Db}

theorem Spares.symm {id : Int} {db' : Db} (h : Spares id db db') : Spares id db' db :=
  ⟨fun t ht => (h.targets t ht).symm, fun j hj => (h.jobs j hj).symm⟩

theorem Spares.trans {id : Int} {db₁ db₂ db₃ : Db} (h : Spares id db₁ db₂)
    (h' : Spares id db₂ db₃) : Spares id db₁ db₃ :=
  ⟨fun t ht => (h'.targets t ht).trans (h.targets t ht),
    fun j hj => (h'.jobs j hj).trans (h.jobs j hj)⟩

theorem Spares.after {id : Int} {db' : Db} (h : Spares id db db') (o : Write) :
    Spares id db (o.after db' db) :=
  o.after_rec h (.refl id db)

theorem Spares.updateTargets {id : Int} {p : Target → Bool} (e : TargetEdit)
    (hp : ∀ t ∈ db.targets.rows, p t = true → t.id = id) : Spares id db (db.updateTargets p e) where
  targets _ ht := mem_update_of_not hp (fun u hu => (e.key_set u).trans hu) ht
  jobs _ _ := Iff.rfl

theorem Spares.updateJobs {id : Int} {p : Job → Bool} {e : JobEdit}
    (hp : ∀ j ∈ db.jobs.rows, p j = true → j.targetID = id)
    (he : ∀ j, (e.set j).targetID = j.targetID) : Spares id db (db.updateJobs p e) where
  targets _ _ := Iff.rfl
  jobs _ hj := mem_update_of_not hp (fun i hi => (he i).trans hi) hj

theorem Spares.cancel (id : Int) (db : Db) (now : Int) (exceptDedupeKey : String) :
    Spares id db (db.cancelPendingActivationJobsForTarget now id exceptDedupeKey) := by
  apply Spares.updateJobs
  · intro j _ hj
    simp only [Bool.and_eq_true, decide_eq_true_eq] at hj
    exact hj.1.1
  · exact fun _ => rfl

variable {stored : Target}

theorem Spares.upsert (hStored : stored ∈ db.targets.rows) {new : Target}
    (hKey : new.targetKey = stored.targetKey) :
    Spares stored.id db (db.upsertActivationTarget new) := by
  have hFind : db.targets.findIndex? new.targetKey = some stored := by
    rw [hKey]
    exact findIndex?_eq_some.mpr ⟨hStored, rfl⟩
  unfold Db.upsertActivationTarget
  rw [hFind]
  apply Spares.updateTargets
  intro t ht htKey
  rw [eq_of_index ht hStored ((of_decide_eq_true htKey).trans hKey)]

theorem Spares.createJob (db : Db) (o : Write) (job : Job) :
    Spares job.targetID db (db.createJob o job).1 := by
  unfold Db.createJob
  cases hInsert : db.jobs.insert job with
  | none => exact .refl _ db
  | some jobs =>
    refine ⟨fun _ _ => Iff.rfl, ?_⟩
    intro j hj
    rcases o.after_cases jobs db.jobs with hNew | hOld
    · simp only [hNew, rows_insert hInsert, mem_append, mem_singleton]
      constructor
      · rintro (hMem | rfl)
        · exact hMem
        · exact absurd rfl hj
      · exact Or.inl
    · simp only [hOld]

theorem Spares.schedule (id : Int) (db : Db) (o : ScheduleOutcome) (now : Int) (targetKey : String)
    (resetAt scheduledAt : Int) (trigger : String) :
    Spares id db (db.scheduleActivationJob o now id targetKey resetAt scheduledAt trigger).1 := by
  rcases scheduleActivationJob_fst db o now id targetKey resetAt scheduledAt trigger with
    hSame | hCreate
  · rw [hSame]
    exact .refl id db
  · rw [hCreate]
    exact Spares.createJob db o.create (newJob now _ id targetKey resetAt scheduledAt trigger)

theorem Follows.find {db' : Db} (h : Follows db db') (hStored : stored ∈ db.targets.rows) :
    ∃ t, db'.targets.findIndex? stored.targetKey = some t ∧ t.id = stored.id := by
  obtain ⟨t, ht, hId, hKey⟩ := h.targets stored hStored
  exact ⟨t, findIndex?_eq_some.mpr ⟨ht, hKey⟩, hId⟩

theorem Spares.reconcileOne {t : Turn} (hStored : stored ∈ db.targets.rows)
    (hKey : t.snapshot.targetKey = stored.targetKey) :
    Spares stored.id db (reconcileOne t db).1 := by
  unfold Activation.reconcileOne
  dsimp only
  split
  · exact .refl _ db
  · let db₁ := t.upsert.after (db.upsertActivationTarget (t.snapshot.target t.now)) db
    have hUpsert : Spares stored.id db db₁ := (Spares.upsert hStored hKey).after t.upsert
    have hWrites : Writes (fun _ => True) db db₁ :=
      Writes.after (.single (.upsert db trivial)) t.upsert
    obtain ⟨stored', hFind, hId⟩ := hWrites.follows.find hStored
    refine hUpsert.trans ?_
    rw [hKey, Db.getActivationTargetByKey, hFind]
    split
    · exact .refl _ _
    · exact .refl _ _
    · exact .refl _ _
    · rename_i found _ _ hFound
      cases hFound
      rw [← hId]
      split
      · exact (Spares.cancel _ _ _ _).after t.cancel
      · have hSchedule := Spares.schedule stored'.id
          (t.upsert.after (db.upsertActivationTarget (t.snapshot.target t.now)) db) t.schedule t.now
          stored'.targetKey t.snapshot.resetAt (t.snapshot.scheduledAt t.now) "automatic"
        split
        · rename_i hResult
          rw [hResult] at hSchedule
          exact hSchedule
        · rename_i hResult
          rw [hResult] at hSchedule
          exact hSchedule.trans ((Spares.cancel _ _ _ _).after t.cancel)

/-! ## When the round of a snapshot succeeds -/

/-- Whether `ScheduleActivationJob` finds or creates a job, given whether there is one. -/
def ScheduleOutcome.finds (o : ScheduleOutcome) (stored : Bool) : Bool :=
  match o.create with
  | .ok => !stored || o.find.isNone
  | .failed _ => stored && o.find.isNone
  | .lost _ => o.find.isNone

theorem scheduleActivationJob_isOk (db : Db) (o : ScheduleOutcome) (now : Int) {targetID : Int}
    (hId : 0 < targetID) {targetKey : String} (hKey : targetKey ≠ "") (resetAt scheduledAt : Int)
    (trigger : String) :
    (db.scheduleActivationJob o now targetID targetKey resetAt scheduledAt trigger).2.isOk =
      o.finds (db.jobs.findIndex? (dedupeKey targetKey resetAt)).isSome := by
  have hArgs : ¬(targetID ≤ 0 ∨ targetKey = "") := by
    rintro (h | h)
    · omega
    · exact hKey h
  unfold Db.scheduleActivationJob
  rw [if_neg hArgs]
  unfold Db.createJob ScheduleOutcome.finds
  cases hFind : db.jobs.findIndex? (dedupeKey targetKey resetAt) with
  | none =>
    have hIds : ∀ j ∈ db.jobs.rows, j.id ≠ nextId (db.jobs.rows.map Job.id) := by
      intro j hj
      have hLt := lt_nextId (mem_map_of_mem (f := Job.id) hj)
      omega
    obtain ⟨jobs, hInsert⟩ := insert_eq_some (t := db.jobs)
      (r := newJob now (nextId (db.jobs.rows.map Job.id))
        targetID targetKey resetAt scheduledAt trigger)
      hIds (findIndex?_eq_none.mp hFind)
    have hSelf : jobs.findIndex? (dedupeKey targetKey resetAt) = some _ :=
      findIndex?_insert_self hInsert
    cases hCreate : o.create with
    | ok => simp [hInsert, Write.error?, Except.isOk, Except.toBool]
    | failed e =>
      simp [hInsert, Write.error?, Write.after, Write.tookEffect, hFind, Except.isOk, Except.toBool]
    | lost e =>
      cases hLookup : o.find <;>
        simp [hInsert, Write.error?, Write.after, Write.tookEffect, hSelf, Except.isOk,
          Except.toBool]
  | some existing =>
    have hInsert : db.jobs.insert (newJob now (nextId (db.jobs.rows.map Job.id)) targetID targetKey
        resetAt scheduledAt trigger) = none := by
      cases hInsert : db.jobs.insert (newJob now (nextId (db.jobs.rows.map Job.id))
        targetID targetKey resetAt scheduledAt trigger) with
      | none => rfl
      | some jobs =>
        have hFree : db.jobs.findIndex? (dedupeKey targetKey resetAt) = none :=
          findIndex?_of_insert hInsert
        rw [hFree] at hFind
        cases hFind
    cases hLookup : o.find <;> cases hCreate : o.create <;>
      simp [hInsert, hFind, Except.isOk, Except.toBool]

/-- Whether the round of a snapshot succeeds, given whether its target is enabled. -/
def Turn.completes (t : Turn) (enabled : Bool) (db : Db) : Bool :=
  decide (t.upsert = .ok) && t.get.isNone &&
    (!t.snapshot.schedulable enabled ||
      t.schedule.finds (db.jobs.findIndex? (dedupeKey t.snapshot.targetKey
        t.snapshot.resetAt)).isSome)

theorem reconcileOne_isOk {t : Turn} (hStored : stored ∈ db.targets.rows) (hId : 0 < stored.id)
    (hKey : t.snapshot.targetKey = stored.targetKey) (hNonempty : stored.targetKey ≠ "") :
    (reconcileOne t db).2.isOk = t.completes stored.enabled db := by
  unfold reconcileOne Turn.completes
  rw [if_neg (by rwa [hKey])]
  cases hUpsert : t.upsert with
  | failed e | lost e => simp [Write.error?, Except.isOk, Except.toBool]
  | ok =>
    simp only [Write.error?, Write.after_ok, decide_true, Bool.true_and]
    cases hGet : t.get with
    | some e => simp [Except.isOk, Except.toBool]
    | none =>
      have hFind₀ : db.targets.findIndex? t.snapshot.targetKey = some stored :=
        findIndex?_eq_some.mpr ⟨hStored, hKey.symm⟩
      obtain ⟨stored', hFind, -, -, -, hEnabled⟩ := findIndex?_upsert db (t.snapshot.target t.now)
      have hEnabled' : stored'.enabled = stored.enabled := by
        rw [hEnabled, show (t.snapshot.target t.now).targetKey = t.snapshot.targetKey from rfl,
          hFind₀]
        rfl
      obtain ⟨found, hFound, hFoundId⟩ := (Follows.upsert db (t.snapshot.target t.now)).find hStored
      rw [← hKey] at hFound
      obtain rfl : found = stored' := Option.some.inj (hFound.symm.trans hFind)
      have hFoundKey : found.targetKey = t.snapshot.targetKey :=
        (findIndex?_eq_some.mp hFound).2
      have hSchedule := scheduleActivationJob_isOk
        (db.upsertActivationTarget (t.snapshot.target t.now))
        t.schedule t.now (hFoundId ▸ hId) (hFoundKey.trans hKey ▸ hNonempty) t.snapshot.resetAt
        (t.snapshot.scheduledAt t.now) "automatic"
      rw [jobs_upsert, hFoundKey] at hSchedule
      simp only [Db.getActivationTargetByKey, hFound, schedulable_eq, hEnabled', Option.isNone_none,
        Bool.true_and]
      cases t.snapshot.schedulable stored.enabled with
      | false => rfl
      | true =>
        simp only [Bool.not_true, Bool.false_eq_true, if_false, Bool.false_or]
        rw [← hSchedule, hFoundKey]
        split
        · rename_i hResult
          rw [hResult]
          rfl
        · rename_i hResult
          rw [hResult]
          rfl

theorem reconcile_singleton (t : Turn) (markNow : Int) (mark : Write) (sourceType : SourceType)
    (db : Db) : (reconcileActivationSnapshots [t] markNow mark sourceType db).db =
      if (reconcileOne t db).2.isOk then
        mark.after ((reconcileOne t db).1.markMissingActivationTargetsUnavailable markNow sourceType
          [t.snapshot.targetKey]) (reconcileOne t db).1
      else (reconcileOne t db).1 := by
  unfold reconcileActivationSnapshots reconcileLoop
  obtain ⟨db₁, result⟩ := reconcileOne t db
  cases result with
  | error e => rfl
  | ok created => rfl

/-! ## The other targets of the source type -/

/-- The other targets of the source type already are as the mark leaves them, and none of them has a
pending job. -/
def Quiet (id : Int) (sourceType : SourceType) (now : Int) (db : Db) : Prop :=
  ∀ t ∈ db.targets.rows, t.id ≠ id → t.source.type = sourceType →
    (TargetEdit.missing now).set t = t ∧ ∀ j ∈ db.jobs.rows, j.targetID = t.id → j.status ≠ .pending

theorem Spares.quiet_iff {id : Int} {db' : Db} (h : Spares id db db') (sourceType : SourceType)
    (now : Int) : Quiet id sourceType now db' ↔ Quiet id sourceType now db := by
  constructor
  · intro hQuiet t ht hId hType
    obtain ⟨hSet, hJobs⟩ := hQuiet t ((h.targets t hId).mpr ht) hId hType
    refine ⟨hSet, ?_⟩
    intro j hj hTarget
    exact hJobs j ((h.jobs j (hTarget ▸ hId)).mpr hj) hTarget
  · intro hQuiet t ht hId hType
    obtain ⟨hSet, hJobs⟩ := hQuiet t ((h.targets t hId).mp ht) hId hType
    refine ⟨hSet, ?_⟩
    intro j hj hTarget
    exact hJobs j ((h.jobs j (hTarget ▸ hId)).mp hj) hTarget

theorem isMissing_singleton {t : Target} (hStored : stored ∈ db.targets.rows)
    (ht : t ∈ db.targets.rows) (sourceType : SourceType) :
    t.isMissing sourceType [stored.targetKey] = true ↔ t.source.type = sourceType ∧
      t.id ≠ stored.id := by
  have hKeys : t.targetKey = stored.targetKey ↔ t.id = stored.id := by
    constructor
    · intro hKey
      rw [eq_of_index ht hStored hKey]
    · intro hId
      rw [eq_of_key ht hStored hId]
  simp [Target.isMissing, hKeys]

theorem spares_markMissing_iff (hStored : stored ∈ db.targets.rows) (now : Int)
    (sourceType : SourceType) :
    Spares stored.id db
        (db.markMissingActivationTargetsUnavailable now sourceType [stored.targetKey]) ↔
      Quiet stored.id sourceType now db := by
  constructor
  · intro h t ht hId hType
    have hMissing : ((db.targets.rows.filter (Target.isMissing sourceType [stored.targetKey])).map
        Target.id).contains t.id = true := by
      rw [contains_missing ht]
      exact (isMissing_singleton hStored ht sourceType).mpr ⟨hType, hId⟩
    constructor
    · -- the row that the mark writes has the id of the target, which is still there
      have hSet : (TargetEdit.missing now).set t ∈
          (db.markMissingActivationTargetsUnavailable now sourceType
            [stored.targetKey]).targets.rows :=
        mem_update.mpr ⟨t, ht, by rw [if_pos hMissing]⟩
      exact eq_of_key hSet ((h.targets t hId).mpr ht) rfl
    · intro j hj hTarget hPending
      have hSet : (JobEdit.cancel now).set j ∈
          (db.markMissingActivationTargetsUnavailable now sourceType
            [stored.targetKey]).jobs.rows := by
        refine mem_update.mpr ⟨j, hj, ?_⟩
        rw [hTarget, hMissing, hPending]
        rfl
      have hSame := eq_of_key hSet ((h.jobs j (hTarget ▸ hId)).mpr hj) rfl
      have hStatus : JobStatus.cancelled = j.status := congrArg Job.status hSame
      rw [hPending] at hStatus
      cases hStatus
  · intro h
    constructor
    · intro t _
      refine mem_update.trans ⟨?_, ?_⟩
      · rintro ⟨u, hu, rfl⟩
        split
        · rename_i hMissing
          rw [contains_missing hu, isMissing_singleton hStored hu] at hMissing
          rwa [(h u hu hMissing.2 hMissing.1).1]
        · exact hu
      · intro ht
        refine ⟨t, ht, ?_⟩
        split
        · rename_i hMissing
          rw [contains_missing ht, isMissing_singleton hStored ht] at hMissing
          exact (h t ht hMissing.2 hMissing.1).1.symm
        · rfl
    · intro j _
      -- no pending job belongs to a missing target
      have hNone : ∀ i ∈ db.jobs.rows, (((db.targets.rows.filter
          (Target.isMissing sourceType [stored.targetKey])).map Target.id).contains i.targetID &&
          i.status = .pending) = true → False := by
        intro i hi hBoth
        simp only [Bool.and_eq_true, contains_iff_mem, mem_map, mem_filter,
          decide_eq_true_eq] at hBoth
        obtain ⟨⟨t, ⟨ht, hMissing⟩, hId⟩, hPending⟩ := hBoth
        rw [isMissing_singleton hStored ht] at hMissing
        exact (h t ht hMissing.2 hMissing.1).2 i hi hId.symm hPending
      exact mem_update_of_not hNone (fun _ hFalse => hFalse) not_false

/-! ## When an execution reconciles -/

/-- The execution ends with a new window, that of the probe: it was activated by other traffic, or
the activation has moved it. -/
def Renews (e : Execution) (job : Job) (p : Probe) : Prop :=
  (e.probe = .ok p ∧ job.trigger ≠ "manual" ∧ e.now + activationWindowGrace < p.resetAt ∧
    job.previousResetAt + 60 < p.resetAt) ∨
  ∃ q, e.probe = .ok q ∧ (job.trigger = "manual" ∨ q.resetAt ≤ e.now + activationWindowGrace) ∧
    e.sent = none ∧ e.verify = .ok p ∧ (job.trigger = "manual" ∨ q.resetAt < p.resetAt)

variable {hash : String → String} {target : Target}

theorem getActivationSnapshot_ok {probe : Except Err Probe} {s : Snapshot}
    (h : getActivationSnapshot hash target probe = .ok s) :
    ∃ key p, target.source.key hash = .ok key ∧ probe = .ok p ∧
      s = p.snapshot target.source key := by
  unfold getActivationSnapshot at h
  cases hKey : target.source.key hash with
  | error e =>
    rw [hKey] at h
    cases h
  | ok key =>
    rw [hKey] at h
    cases probe with
    | error e => cases h
    | ok p =>
      cases h
      exact ⟨key, p, rfl, rfl, rfl⟩

theorem finishActivationFailure_ne_renew (job : Job) (now : Int) (runErr : String)
    {snapshot : Snapshot} {status : JobStatus} {resultText targetStatus : String}
    {activatedAt : Int} : finishActivationFailure job now runErr ≠
      .renew target snapshot status resultText targetStatus activatedAt := by
  unfold finishActivationFailure
  split <;> simp

variable {e : Execution} {job : Job}

theorem verdict_renew {found : Option Target} {snapshot : Snapshot} {status : JobStatus}
    {resultText targetStatus : String} {activatedAt : Int} (h : verdict hash e job found = .renew
      target snapshot status resultText targetStatus activatedAt) :
    e.get = none ∧ found = some target ∧ target.enabled = true ∧ target.available = true ∧
      ∃ key p, target.source.key hash = .ok key ∧ Renews e job p ∧
        snapshot = p.snapshot target.source key := by
  unfold verdict at h
  dsimp only at h
  split at h
  · exact absurd h (finishActivationFailure_ne_renew _ _ _)
  · exact absurd h (finishActivationFailure_ne_renew _ _ _)
  rename_i stored hGet
  split at h
  · cases h
  rename_i hUsable
  simp only [Bool.or_eq_true, Bool.not_eq_true', not_or, Bool.not_eq_false] at hUsable
  split at h
  · exact absurd h (finishActivationFailure_ne_renew _ _ _)
  rename_i first hFirst
  obtain ⟨key, p, hKey, hProbe, rfl⟩ := getActivationSnapshot_ok hFirst
  split at h
  · rename_i hNotDue
    simp only [Bool.and_eq_true, Bool.not_eq_true', decide_eq_false_iff_not, decide_eq_true_eq]
      at hNotDue
    split at h
    · rename_i hMoved
      cases h
      exact ⟨hGet, rfl, hUsable.1, hUsable.2, key, p, hKey,
        Or.inl ⟨hProbe, hNotDue.1, hNotDue.2, hMoved⟩, rfl⟩
    · cases h
  · rename_i hDue
    simp only [Bool.and_eq_true, Bool.not_eq_true', decide_eq_false_iff_not, decide_eq_true_eq,
      not_and_or, not_not, not_lt] at hDue
    split at h
    · exact absurd h (finishActivationFailure_ne_renew _ _ _)
    rename_i hSent
    split at h
    · exact absurd h (finishActivationFailure_ne_renew _ _ _)
    rename_i second hSecond
    obtain ⟨key', q, hKey', hVerify, rfl⟩ := getActivationSnapshot_ok hSecond
    split at h
    · exact absurd h (finishActivationFailure_ne_renew _ _ _)
    rename_i hAdvanced
    simp only [Bool.and_eq_true, Bool.not_eq_true', decide_eq_false_iff_not, decide_eq_true_eq,
      not_and_or, not_not, not_le] at hAdvanced
    cases h
    have hSent' : e.sent = none := by
      unfold activateTarget at hSent
      split at hSent
      · cases hSent
      · exact hSent
    exact ⟨hGet, rfl, hUsable.1, hUsable.2, key', q, hKey',
      Or.inr ⟨p, hProbe, hDue, hSent', hVerify, hAdvanced⟩, rfl⟩

theorem verdict_of_renews {p : Probe} {key : String} (hGet : e.get = none)
    (hEnabled : target.enabled = true) (hAvailable : target.available = true)
    (hKey : target.source.key hash = .ok key) (h : Renews e job p) :
    ∃ status resultText targetStatus activatedAt, verdict hash e job (some target) =
      .renew target (p.snapshot target.source key) status resultText targetStatus activatedAt := by
  have hActivate : activateTarget target e.sent = e.sent := by
    unfold activateTarget
    split
    · rename_i hOther
      rw [hOther] at hKey
      cases hKey
    · rfl
  unfold verdict
  rcases h with ⟨hProbe, hAuto, hNotDue, hMoved⟩ | ⟨q, hProbe, hDue, hSent, hVerify, hAdvanced⟩
  · have hFirst : getActivationSnapshot hash target e.probe =
        .ok (p.snapshot target.source key) := by
      rw [getActivationSnapshot, hKey, hProbe]
      rfl
    refine ⟨.skipped, "window already activated by normal traffic", "traffic_activated", 0, ?_⟩
    simp [hGet, hEnabled, hAvailable, hFirst, hAuto, Probe.snapshot, hNotDue, hMoved]
  · have hFirst : getActivationSnapshot hash target e.probe =
        .ok (q.snapshot target.source key) := by
      rw [getActivationSnapshot, hKey, hProbe]
      rfl
    have hSecond : getActivationSnapshot hash target e.verify =
        .ok (p.snapshot target.source key) := by
      rw [getActivationSnapshot, hKey, hVerify]
      rfl
    refine ⟨.succeeded, "activation ping succeeded", "succeeded", e.activatedAt, ?_⟩
    have hNotEarly : ¬(job.trigger ≠ "manual" ∧ e.now + activationWindowGrace < q.resetAt) := by
      rintro ⟨hAuto, hLt⟩
      rcases hDue with hManual | hLe
      · exact hAuto hManual
      · omega
    have hNotStuck : ¬(job.trigger ≠ "manual" ∧ p.resetAt ≤ q.resetAt) := by
      rintro ⟨hAuto, hLe⟩
      rcases hAdvanced with hManual | hLt
      · exact hAuto hManual
      · omega
    rw [hSent] at hActivate
    simp only [hGet, hEnabled, hAvailable, hFirst, hSecond, hSent, hActivate, Probe.snapshot,
      Bool.not_true, Bool.or_self, Bool.false_eq_true, if_false, Bool.and_eq_true,
      Bool.not_eq_true', decide_eq_false_iff_not, decide_eq_true_eq, gt_iff_lt]
    rw [if_neg hNotEarly, if_neg hNotStuck]

/-! ## Other targets -/

/-- The targets of the queue have positive ids and the keys of their sources. -/
structure Sound (hash : String → String) (db : Db) : Prop where
  pos : ∀ t ∈ db.targets.rows, 0 < t.id
  keyed : ∀ t ∈ db.targets.rows, t.source.key hash = .ok t.targetKey

theorem key_ne_empty {source : Source} {key : String} (h : source.key hash = .ok key) :
    key ≠ "" := by
  intro hEmpty
  subst hEmpty
  cases source with
  | cpaAccount authIndex | codexChannel channelID =>
    have hList := congrArg String.toList (Except.ok.inj h)
    simp at hList
  | other sourceType sourceID => cases h

structure Marks (e : Execution) (job : Job) (db : Db) (target : Target) (p : Probe) : Prop where
  get : e.get = none
  enabled : target.enabled = true
  available : target.available = true
  renews : Renews e job p
  completes : (e.turn (p.snapshot target.source target.targetKey)).completes true db = true
  mark : e.mark.tookEffect = true

def Execution.written (e : Execution) (job : Job) (target : Target) (snapshot : Snapshot)
    (status : JobStatus) (resultText targetStatus : String) (activatedAt : Int) (db : Db) : Db :=
  let outcome := Verdict.renew target snapshot status resultText targetStatus activatedAt
  let db := e.finish.after (outcome.writeJob e.finishNow job.id db) db
  e.result.after (db.updateActivationTargetResult e.resultNow target.id targetStatus ""
    snapshot.resetAt activatedAt) db

theorem Verdict.writeJob_eq (v : Verdict) (now id : Int) (db : Db) :
    ∃ e : JobEdit, (∀ j, (e.set j).targetID = j.targetID) ∧
      v.writeJob now id db = db.updateJobs (fun j => j.id = id) e := by
  cases v <;> exact ⟨_, fun _ => rfl, rfl⟩

theorem Spares.writeJob (hJob : ∀ j ∈ db.jobs.rows, j.id = job.id → j.targetID = job.targetID)
    (v : Verdict) (o : Write) (now : Int) :
    Spares job.targetID db (o.after (v.writeJob now job.id db) db) := by
  obtain ⟨e, he, hWrite⟩ := v.writeJob_eq now job.id db
  rw [hWrite]
  apply Spares.after
  apply Spares.updateJobs
  · exact fun j hj hId => hJob j hj (of_decide_eq_true hId)
  · exact he

theorem Spares.result (id : Int) (db : Db) (o : Write) (now : Int) (status errorMessage : String)
    (resetAt activatedAt : Int) :
    Spares id db (o.after (db.updateActivationTargetResult now id status errorMessage resetAt
      activatedAt) db) := by
  apply Spares.after
  apply Spares.updateTargets
  exact fun t _ hId => of_decide_eq_true hId

/-- The target is still there, and enabled as before; whether there is a job for a reset time does
not change. -/
theorem written_spec (hTarget : target ∈ db.targets.rows) (snapshot : Snapshot)
    (status : JobStatus) (resultText targetStatus : String) (activatedAt : Int) :
    (∃ stored ∈ (e.written job target snapshot status resultText targetStatus activatedAt
      db).targets.rows,
      stored.id = target.id ∧ stored.targetKey = target.targetKey ∧
        stored.enabled = target.enabled) ∧
    ∀ dedupe, ((e.written job target snapshot status resultText targetStatus activatedAt
      db).jobs.findIndex? dedupe).isSome = (db.jobs.findIndex? dedupe).isSome := by
  unfold Execution.written
  set db₁ := e.finish.after ((Verdict.renew target snapshot status resultText targetStatus
    activatedAt).writeJob e.finishNow job.id db) db with hdb₁
  have hFirst : db₁.targets = db.targets ∧
      ∀ dedupe, (db₁.jobs.findIndex? dedupe).isSome = (db.jobs.findIndex? dedupe).isSome := by
    rcases e.finish.after_cases ((Verdict.renew target snapshot status resultText targetStatus
      activatedAt).writeJob e.finishNow job.id db) db with hNew | hOld
    · rw [hdb₁, hNew]
      refine ⟨rfl, ?_⟩
      intro dedupe
      rw [Verdict.writeJob, Db.finishActivationJob, Db.updateJobs, findIndex?_update,
        Option.isSome_map]
    · rw [hdb₁, hOld]
      exact ⟨rfl, fun _ => rfl⟩
  rcases e.result.after_cases (db₁.updateActivationTargetResult e.resultNow target.id targetStatus
    "" snapshot.resetAt activatedAt) db₁ with hNew | hOld
  · rw [hNew]
    refine ⟨⟨_, mem_update.mpr ⟨target, hFirst.1 ▸ hTarget, rfl⟩, ?_, ?_, ?_⟩, hFirst.2⟩ <;>
      split <;> rfl
  · rw [hOld, hFirst.1]
    exact ⟨⟨target, hTarget, rfl, rfl, rfl⟩, hFirst.2⟩

/-- The reconciliation at the end of an execution leaves the others alone exactly when it does not
get to the mark, or finds nothing to mark. -/
theorem spares_renew_iff (hSound : Sound hash db) (hTarget : target ∈ db.targets.rows)
    (hId : target.id = job.targetID)
    (hJob : ∀ j ∈ db.jobs.rows, j.id = job.id → j.targetID = job.targetID) (snapshot : Snapshot)
    (hKey : snapshot.targetKey = target.targetKey) (status : JobStatus)
    (resultText targetStatus : String) (activatedAt : Int) (sourceType : SourceType) :
    Spares job.targetID db (reconcileActivationSnapshots [e.turn snapshot]
      e.markNow e.mark sourceType
        (e.written job target snapshot status resultText targetStatus activatedAt db)).db ↔
      ((e.turn snapshot).completes target.enabled db = true → e.mark.tookEffect = true →
        Quiet job.targetID sourceType e.markNow db) := by
  obtain ⟨⟨stored, hStored, hStoredId, hStoredKey, hEnabled⟩, hJobs⟩ :=
    @written_spec db target e job hTarget snapshot status resultText targetStatus activatedAt
  have hWritten : Spares job.targetID db
      (e.written job target snapshot status resultText targetStatus activatedAt db) := by
    refine (Spares.writeJob hJob (.renew target snapshot status resultText targetStatus activatedAt)
      e.finish e.finishNow).trans ?_
    rw [← hId]
    exact .result _ _ _ _ _ _ _ _
  generalize e.written job target snapshot status resultText targetStatus activatedAt db = db₁ at *
  have hTurnKey : (e.turn snapshot).snapshot.targetKey = stored.targetKey :=
    hKey.trans hStoredKey.symm
  have hOne := Spares.reconcileOne hStored hTurnKey
  obtain ⟨stored', hFind, hStoredId'⟩ := (Follows.reconcileOne (e.turn snapshot) db₁).find hStored
  obtain ⟨hStored', hStoredKey'⟩ := findIndex?_eq_some.mp hFind
  rw [reconcile_singleton, reconcileOne_isOk hStored
    (by rw [hStoredId]; exact hSound.pos target hTarget)
    hTurnKey (by rw [hStoredKey]; exact key_ne_empty (hSound.keyed target hTarget))]
  have hCompletes : (e.turn snapshot).completes stored.enabled db₁ =
      (e.turn snapshot).completes target.enabled db := by
    rw [Turn.completes, hJobs, hEnabled]
    rfl
  rw [hStoredId, hId] at hOne hStoredId'
  have hBefore : Spares job.targetID db (reconcileOne (e.turn snapshot) db₁).1 :=
    hWritten.trans hOne
  rw [hCompletes, hTurnKey, ← hStoredKey']
  split
  · rename_i hDone
    cases hMark : e.mark.tookEffect with
    | false => simp [Write.after, hMark, hBefore]
    | true =>
      have hMarked := spares_markMissing_iff hStored' e.markNow sourceType
      rw [hStoredId', hBefore.quiet_iff] at hMarked
      simp only [Write.after, hMark, hDone, if_true, true_implies]
      rw [← hMarked]
      exact ⟨hBefore.symm.trans, hBefore.trans⟩
  · rename_i hDone
    exact ⟨fun _ h => absurd h hDone, fun _ => hBefore⟩

/-- An execution leaves the other targets and their jobs alone exactly when it does not get to the
mark, or finds nothing to mark. -/
theorem spares_iff_quiet (hash : String → String) (e : Execution) (job : Job) (db : Db)
    (hSound : Sound hash db)
    (hJob : ∀ j ∈ db.jobs.rows, j.id = job.id → j.targetID = job.targetID) :
    Spares job.targetID db (executeActivationJob hash e job db) ↔
      ∀ target ∈ db.targets.rows, target.id = job.targetID → ∀ p, Marks e job db target p →
        Quiet job.targetID target.source.type e.markNow db := by
  -- what reaches the mark ends with a renewal of the target that is read
  have hRenews : ∀ target ∈ db.targets.rows, target.id = job.targetID → ∀ p,
      Marks e job db target p → ∃ status resultText targetStatus activatedAt,
        verdict hash e job (db.getActivationTarget job.targetID) = .renew target
          (p.snapshot target.source target.targetKey)
            status resultText targetStatus activatedAt := by
    intro target hTarget hId p hMarks
    rw [Db.getActivationTarget, ← hId, Table.find?_of_mem hTarget]
    exact verdict_of_renews hMarks.get hMarks.enabled hMarks.available (hSound.keyed target hTarget)
      hMarks.renews
  unfold executeActivationJob
  have hWrite := Spares.writeJob hJob (verdict hash e job (db.getActivationTarget job.targetID))
    e.finish e.finishNow
  -- without a renewal, the mark is not reached
  have hOther : (∀ target snapshot status resultText targetStatus activatedAt,
        verdict hash e job (db.getActivationTarget job.targetID) ≠
          .renew target snapshot status resultText targetStatus activatedAt) →
      ∀ target ∈ db.targets.rows, target.id = job.targetID → ∀ p, Marks e job db target p →
        Quiet job.targetID target.source.type e.markNow db := by
    intro hNot target hTarget hId p hMarks
    obtain ⟨_, _, _, _, hRenew⟩ := hRenews target hTarget hId p hMarks
    exact absurd hRenew (hNot _ _ _ _ _ _)
  cases hVerdict : verdict hash e job (db.getActivationTarget job.targetID) with
  | retry scheduledAt errorMessage | skip resultText =>
    rw [hVerdict] at hOther hWrite
    exact ⟨fun _ => hOther fun _ _ _ _ _ _ => nofun, fun _ => hWrite⟩
  | fail errorMessage =>
    rw [hVerdict] at hOther hWrite
    refine ⟨fun _ => hOther fun _ _ _ _ _ _ => nofun, fun _ => ?_⟩
    exact hWrite.trans (.result _ _ _ _ _ _ _ _)
  | renew target snapshot status resultText targetStatus activatedAt =>
    obtain ⟨hGet, hFound, hEnabled, hAvailable, key, p, hKey, hRenew, rfl⟩ := verdict_renew hVerdict
    obtain ⟨hTarget, hId⟩ := Table.find?_eq_some.mp hFound
    have hTargetKey : key = target.targetKey :=
      Except.ok.inj (hKey.symm.trans (hSound.keyed target hTarget))
    subst hTargetKey
    have hIff := spares_renew_iff (e := e) hSound hTarget hId hJob
      (p.snapshot target.source target.targetKey) rfl status resultText targetStatus activatedAt
      target.source.type
    refine hIff.trans ⟨?_, ?_⟩
    · intro hQuiet target' hTarget' hId' q hMarks
      obtain ⟨_, _, _, _, hRenew'⟩ := hRenews target' hTarget' hId' q hMarks
      obtain rfl : target = target' := eq_of_key hTarget hTarget' (hId.trans hId'.symm)
      rw [hVerdict] at hRenew'
      obtain ⟨-, hSnapshot, -⟩ := Verdict.renew.inj hRenew'
      apply hQuiet
      · rw [hSnapshot, hEnabled]
        exact hMarks.completes
      · exact hMarks.mark
    · intro hQuiet hCompletes hMark
      rw [hEnabled] at hCompletes
      exact hQuiet target hTarget hId p ⟨hGet, hEnabled, hAvailable, hRenew, hCompletes, hMark⟩

def twoChannels : Db × Except Err (Option Job) :=
  (reconcileActivationSnapshots [sampleTurn 1 1200, sampleTurn 2 5000] 1000 .ok .codexChannel
    Db.empty).db.claimNextDueActivationJob ⟨none, .ok, none⟩ 1300

def sampleExecution (resetAt : Int) : Execution where
  get := none
  probe := .ok ⟨"codex", "plus", true, 18000, 1200, ""⟩
  now := 1300
  sent := none
  verify := .ok ⟨"codex", "plus", true, 18000, resetAt, ""⟩
  retryNow := 1300
  finishNow := 1303
  finish := .ok
  resultNow := 1303
  activatedAt := 1303
  result := .ok
  turnNow := 1303
  upsert := .ok
  getByKey := none
  schedule := ⟨.ok, none⟩
  cancel := .ok
  markNow := 1303
  mark := .ok

theorem spares_iff_quiet_twoChannels :
    Sound id twoChannels.1 ∧ ∀ job, twoChannels.2 = .ok (some job) →
      (Spares job.targetID twoChannels.1 (executeActivationJob id (sampleExecution 19300)
        job twoChannels.1) ↔ ∀ target ∈ twoChannels.1.targets.rows, target.id = job.targetID → ∀ p,
          Marks (sampleExecution 19300) job twoChannels.1 target p →
            Quiet job.targetID target.source.type 1303 twoChannels.1) := by
  have hSound : Sound id twoChannels.1 := ⟨by decide, by decide⟩
  refine ⟨hSound, ?_⟩
  intro job hClaimed
  have hFirst : twoChannels.2.toOption.join.map (fun j => (j.id, j.targetID)) = some (1, 1) := by
    decide
  have hRows : ∀ j ∈ twoChannels.1.jobs.rows, j.id = 1 → j.targetID = 1 := by decide
  rw [hClaimed] at hFirst
  obtain ⟨hId, hTarget⟩ := Prod.mk.inj (Option.some.inj hFirst)
  apply spares_iff_quiet id (sampleExecution 19300) job twoChannels.1 hSound
  rw [hId, hTarget]
  exact hRows

/-- The activation of channel 1 takes channel 2 out of service and cancels its job. -/
theorem activation_marks_others_missing :
    ∃ job, twoChannels.2 = .ok (some job) ∧ job.targetID = 1 ∧
      (twoChannels.1.getActivationTarget 2).map (fun t => (t.available, t.lastStatus)) =
        some (true, "") ∧
      (twoChannels.1.jobs.find? 2).map (fun j => (j.targetID, j.status)) = some (2, .pending) ∧
      ((executeActivationJob id (sampleExecution 19300) job twoChannels.1).getActivationTarget
        2).map (fun t => (t.available, t.lastStatus)) = some (false, "missing") ∧
      ((executeActivationJob id (sampleExecution 19300) job twoChannels.1).jobs.find? 2).map
        (fun j => (j.targetID, j.status)) = some (2, .cancelled) := by
  refine ⟨⟨1, 1, "channel:1:1200", 1205, .running, "automatic", 1, 4, 1300, 0, 1200, 0, "", "",
    1000, 1300⟩, ?_⟩
  decide

end Qapi.Activation
