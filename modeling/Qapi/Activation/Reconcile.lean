import Qapi.Core.Machine
import Qapi.Core.Text
import Qapi.Activation.Basic

/-!
# Reconciliation of the activation queue

`reconcileActivationSnapshots` writes a target for each snapshot, schedules a job for its
reset time or cancels its pending jobs, and marks the targets of the source type that are
not in the list. A job that is cancelled keeps its dedupe key, so the same reset time is
never scheduled again: `ScheduleActivationJob` finds the cancelled job and returns it as if
it were scheduled.
-/

namespace Qapi.Activation

open Qapi.Core List Indexed
open Async (Write)

/-- `activationSnapshot`; the metadata are the text that they are marshalled to. -/
structure Snapshot where
  targetKey : String
  source : Source
  displayName : String
  planType : String
  available : Bool
  windowSeconds : Int
  resetAt : Int
  metadata : String
deriving DecidableEq, Repr

structure Turn where
  snapshot : Snapshot
  now : Int
  upsert : Write
  get : Option Err
  schedule : ScheduleOutcome
  cancel : Write
deriving DecidableEq, Repr

/-- `activationWindowGrace`, in seconds. -/
def activationWindowGrace : Int := 5

def Snapshot.target (s : Snapshot) (now : Int) : Target where
  id := 0
  targetKey := s.targetKey
  source := s.source
  displayName := s.displayName
  planType := s.planType
  enabled := true
  autoManaged := true
  available := s.available
  windowSeconds := s.windowSeconds
  resetAt := s.resetAt
  lastSeenAt := now
  lastActivatedAt := 0
  lastStatus := ""
  lastError := ""
  metadata := s.metadata
  createdAt := now
  updatedAt := now

def Snapshot.scheduledAt (s : Snapshot) (now : Int) : Int :=
  if s.resetAt > 0 then s.resetAt + activationWindowGrace else now + activationWindowGrace

def reconcileOne (t : Turn) (db : Db) : Db × Except Err Bool :=
  let s := t.snapshot
  if s.targetKey = "" then (db, .error (.msg "activation target key is required"))
  else
    let db := t.upsert.after (db.upsertActivationTarget (s.target t.now)) db
    match t.upsert.error?, t.get, db.getActivationTargetByKey s.targetKey with
    | some e, _, _ => (db, .error e)
    | none, some e, _ => (db, .error e)
    | none, none, none => (db, .error (.msg "activation target not found after upsert"))
    | none, none, some stored =>
      if !stored.enabled || !s.available || decide (s.windowSeconds ≤ 0) then
        (t.cancel.after (db.cancelPendingActivationJobsForTarget t.now stored.id "") db, .ok false)
      else
        match db.scheduleActivationJob t.schedule t.now stored.id stored.targetKey s.resetAt
            (s.scheduledAt t.now) "automatic" with
        | (db, .error e) => (db, .error e)
        | (db, .ok (job, created)) =>
          (t.cancel.after (db.cancelPendingActivationJobsForTarget t.now stored.id job.dedupeKey)
            db, .ok created)

structure Reconciled where
  db : Db
  discovered : Nat
  scheduled : Nat
  error : Option Err

def reconcileLoop : List Turn → Db → Nat → Nat → Reconciled
  | [], db, seen, scheduled => ⟨db, seen, scheduled, none⟩
  | t :: turns, db, seen, scheduled =>
    match reconcileOne t db with
    | (db, .error e) => ⟨db, seen + 1, scheduled, some e⟩
    | (db, .ok created) =>
      reconcileLoop turns db (seen + 1) (if created then scheduled + 1 else scheduled)

def seenKeys (turns : List Turn) : List String := turns.map fun t => t.snapshot.targetKey

/-- `reconcileActivationSnapshots`, with the clock and the outcome of the last transaction. -/
def reconcileActivationSnapshots (turns : List Turn) (markNow : Int) (mark : Write)
    (sourceType : SourceType) (db : Db) : Reconciled :=
  let r := reconcileLoop turns db 0 0
  match r.error with
  | some _ => r
  | none =>
    { r with
      db := mark.after (r.db.markMissingActivationTargetsUnavailable markNow sourceType
        (seenKeys turns)) r.db
      error := mark.error? }

/-! ## What the statements do -/

theorem error?_eq_none {o : Write} : o.error? = none ↔ o = .ok := by
  cases o <;> simp [Write.error?]

/-- `UpsertActivationTarget` leaves a row under the key, and no other row changes. -/
theorem findIndex?_upsert (db : Db) (new : Target) :
    ∃ stored, (db.upsertActivationTarget new).targets.findIndex? new.targetKey = some stored ∧
      stored.resetAt = new.resetAt ∧ stored.available = new.available ∧
      stored.windowSeconds = new.windowSeconds ∧
      stored.enabled = ((db.targets.findIndex? new.targetKey).map Target.enabled).getD
        new.enabled := by
  unfold Db.upsertActivationTarget
  split
  · rename_i old hFind
    have hKey := (findIndex?_eq_some.mp hFind).2
    refine ⟨(TargetEdit.upsert new).set old, ?_, rfl, rfl, rfl, ?_⟩
    · simp [Db.updateTargets, findIndex?_update, hFind, hKey]
    · rw [hFind]
      rfl
  · rename_i hFind
    have hIds : ∀ t ∈ db.targets.rows, t.id ≠ nextId (db.targets.rows.map Target.id) := by
      intro t ht
      have hLt := lt_nextId (mem_map_of_mem (f := Target.id) ht)
      omega
    obtain ⟨targets, hInsert⟩ := insert_eq_some (t := db.targets)
      (r := { new with id := nextId (db.targets.rows.map Target.id) }) hIds
      (findIndex?_eq_none.mp hFind)
    have hSelf := findIndex?_insert_self hInsert
    rw [hInsert]
    refine ⟨_, hSelf, rfl, rfl, rfl, ?_⟩
    rw [hFind]
    rfl

variable {k : String}

theorem findIndex?_upsert_of_ne (db : Db) {new : Target} (hk : new.targetKey ≠ k) :
    (db.upsertActivationTarget new).targets.findIndex? k = db.targets.findIndex? k := by
  unfold Db.upsertActivationTarget
  split
  · cases hFind : db.targets.findIndex? k with
    | none => simp [Db.updateTargets, findIndex?_update, hFind]
    | some t =>
      have hKey := (findIndex?_eq_some.mp hFind).2
      have hne : t.targetKey ≠ new.targetKey := by
        rw [hKey]
        exact Ne.symm hk
      simp [Db.updateTargets, findIndex?_update, hFind, hne]
  · split
    · rename_i targets hInsert
      exact findIndex?_insert_of_ne hInsert hk
    · rfl

theorem jobs_upsert (db : Db) (new : Target) : (db.upsertActivationTarget new).jobs = db.jobs := by
  unfold Db.upsertActivationTarget
  split
  · rfl
  · split <;> rfl

theorem exists_target_upsert (db : Db) (new : Target) {t : Target} (ht : t ∈ db.targets.rows) :
    ∃ t' ∈ (db.upsertActivationTarget new).targets.rows, t'.id = t.id ∧
      t'.targetKey = t.targetKey := by
  unfold Db.upsertActivationTarget
  split
  · refine ⟨_, mem_update.mpr ⟨t, ht, rfl⟩, ?_, ?_⟩ <;> split <;> rfl
  · split
    · rename_i targets hInsert
      refine ⟨t, ?_, rfl, rfl⟩
      rw [rows_insert hInsert]
      exact mem_append_left _ ht
    · exact ⟨t, ht, rfl, rfl⟩

variable {db db' : Db} {created : Bool}

/-- A successful `ScheduleActivationJob` returns the job that has the dedupe key already, whatever
its status, or inserts a pending one. -/
theorem scheduleActivationJob_ok {o : ScheduleOutcome} {now targetID : Int} {targetKey : String}
    {resetAt scheduledAt : Int} {trigger : String} {job : Job}
    (h : db.scheduleActivationJob o now targetID targetKey resetAt scheduledAt trigger = (db',
      .ok (job, created))) :
    (db.jobs.findIndex? (dedupeKey targetKey resetAt) = some job ∧ db' = db) ∨
      (db.jobs.findIndex? (dedupeKey targetKey resetAt) = none ∧ db'.targets = db.targets ∧
        db.jobs.insert job = some db'.jobs ∧ job.status = .pending ∧ job.targetID = targetID ∧
        job.dedupeKey = dedupeKey targetKey resetAt) := by
  unfold Db.scheduleActivationJob at h
  split at h
  · cases h
  · dsimp only at h
    unfold Db.createJob at h
    cases hInsert : db.jobs.insert (newJob now (nextId (db.jobs.rows.map Job.id)) targetID targetKey
      resetAt scheduledAt trigger) with
    | none =>
      simp only [hInsert] at h
      split at h
      · rename_i existing _ hFind
        cases h
        exact Or.inl ⟨hFind, rfl⟩
      · cases h
    | some jobs =>
      have hFree : db.jobs.findIndex? (dedupeKey targetKey resetAt) = none :=
        findIndex?_of_insert hInsert
      have hSelf : jobs.findIndex? (dedupeKey targetKey resetAt) = some _ :=
        findIndex?_insert_self hInsert
      simp only [hInsert] at h
      right
      cases hCreate : o.create with
      | ok =>
        simp only [hCreate, Write.error?, Write.after_ok] at h
        cases h
        exact ⟨hFree, rfl, hInsert, rfl, rfl, rfl⟩
      | failed e =>
        simp [hCreate, Write.error?, Write.after, Write.tookEffect, hFree] at h
      | lost e =>
        -- the answer is lost, but the lookup finds the job that was inserted
        simp only [hCreate, Write.error?, Write.after, Write.tookEffect, if_true, hSelf] at h
        split at h
        · rename_i existing _ hFound
          cases hFound
          cases h
          exact ⟨hFree, rfl, hInsert, rfl, rfl, rfl⟩
        · cases h

theorem scheduleActivationJob_fst (db : Db) (o : ScheduleOutcome) (now targetID : Int)
    (targetKey : String) (resetAt scheduledAt : Int) (trigger : String) :
    (db.scheduleActivationJob o now targetID targetKey resetAt scheduledAt trigger).1 = db ∨
      (db.scheduleActivationJob o now targetID targetKey resetAt scheduledAt trigger).1 =
        (db.createJob o.create (newJob now (nextId (db.jobs.rows.map Job.id)) targetID targetKey
          resetAt scheduledAt trigger)).1 := by
  unfold Db.scheduleActivationJob
  split
  · exact Or.inl rfl
  · right
    dsimp only
    split
    · rename_i hResult
      rw [hResult]
    · rename_i hResult
      rw [hResult]
      split <;> rfl

/-! ## Jobs belong to their targets -/

/-- Every job is for a stored target, and its dedupe key is made of the key of that target. -/
def Linked (db : Db) : Prop :=
  ∀ j ∈ db.jobs.rows, ∃ t ∈ db.targets.rows, t.id = j.targetID ∧
    ∃ resetAt, j.dedupeKey = dedupeKey t.targetKey resetAt

/-- Targets keep their keys, and a job keeps its target or is new and for a stored one. -/
structure Follows (db db' : Db) : Prop where
  targets : ∀ t ∈ db.targets.rows, ∃ t' ∈ db'.targets.rows, t'.id = t.id ∧
    t'.targetKey = t.targetKey
  jobs : ∀ j' ∈ db'.jobs.rows,
    (∃ j ∈ db.jobs.rows, j.targetID = j'.targetID ∧ j.dedupeKey = j'.dedupeKey) ∨
      ∃ t ∈ db'.targets.rows, t.id = j'.targetID ∧
        ∃ resetAt, j'.dedupeKey = dedupeKey t.targetKey resetAt

theorem Follows.linked (h : Follows db db') (hLinked : Linked db) : Linked db' := by
  intro j' hj'
  rcases h.jobs j' hj' with ⟨j, hj, hTarget, hDedupe⟩ | hNew
  · obtain ⟨t, ht, hId, resetAt, hKey⟩ := hLinked j hj
    obtain ⟨t', ht', hId', hKey'⟩ := h.targets t ht
    refine ⟨t', ht', hId'.trans (hId.trans hTarget), resetAt, ?_⟩
    rw [← hDedupe, hKey, hKey']
  · exact hNew

theorem Follows.refl (db : Db) : Follows db db where
  targets t ht := ⟨t, ht, rfl, rfl⟩
  jobs j hj := Or.inl ⟨j, hj, rfl, rfl⟩

theorem Follows.trans {db₁ db₂ db₃ : Db} (h : Follows db₁ db₂) (h' : Follows db₂ db₃) :
    Follows db₁ db₃ where
  targets t ht := by
    obtain ⟨t', ht', hId, hKey⟩ := h.targets t ht
    obtain ⟨t'', ht'', hId', hKey'⟩ := h'.targets t' ht'
    exact ⟨t'', ht'', hId'.trans hId, hKey'.trans hKey⟩
  jobs j'' hj'' := by
    rcases h'.jobs j'' hj'' with ⟨j', hj', hTarget', hDedupe'⟩ | hNew
    · rcases h.jobs j' hj' with ⟨j, hj, hTarget, hDedupe⟩ | ⟨t, ht, hId, resetAt, hKey⟩
      · exact Or.inl ⟨j, hj, hTarget.trans hTarget', hDedupe.trans hDedupe'⟩
      · right
        obtain ⟨t', ht', hId', hKey'⟩ := h'.targets t ht
        refine ⟨t', ht', hId'.trans (hId.trans hTarget'), resetAt, ?_⟩
        rw [← hDedupe', hKey, hKey']
    · exact Or.inr hNew

theorem Follows.updateTargets (db : Db) (p : Target → Bool) (e : TargetEdit) :
    Follows db (db.updateTargets p e) where
  targets t ht := by
    refine ⟨_, mem_update.mpr ⟨t, ht, rfl⟩, ?_, ?_⟩
    · split
      · exact e.key_set t
      · rfl
    · split
      · exact e.index_set t
      · rfl
  jobs j hj := Or.inl ⟨j, hj, rfl, rfl⟩

theorem Follows.updateJobs (db : Db) (p : Job → Bool) {e : JobEdit}
    (he : ∀ j, (e.set j).targetID = j.targetID) : Follows db (db.updateJobs p e) where
  targets t ht := ⟨t, ht, rfl, rfl⟩
  jobs j' hj' := by
    obtain ⟨j, hj, rfl⟩ := mem_update.mp hj'
    refine Or.inl ⟨j, hj, ?_, ?_⟩
    · split
      · exact (he j).symm
      · rfl
    · split
      · exact (e.index_set j).symm
      · rfl

theorem Follows.upsert (db : Db) (new : Target) : Follows db (db.upsertActivationTarget new) where
  targets t ht := exists_target_upsert db new ht
  jobs j hj := by
    rw [jobs_upsert] at hj
    exact Or.inl ⟨j, hj, rfl, rfl⟩

theorem Follows.createJob {stored : Target} (hStored : stored ∈ db.targets.rows) (o : Write)
    {j : Job} (hTarget : j.targetID = stored.id) {resetAt : Int}
    (hDedupe : j.dedupeKey = dedupeKey stored.targetKey resetAt) :
    Follows db (db.createJob o j).1 := by
  unfold Db.createJob
  cases hInsert : db.jobs.insert j with
  | none => exact .refl db
  | some jobs =>
    refine ⟨fun t ht => ⟨t, ht, rfl, rfl⟩, ?_⟩
    intro j' hj'
    rcases o.after_cases jobs db.jobs with hNew | hOld
    · simp only [hNew, rows_insert hInsert, mem_append, mem_singleton] at hj'
      rcases hj' with hj' | rfl
      · exact Or.inl ⟨j', hj', rfl, rfl⟩
      · exact Or.inr ⟨stored, hStored, hTarget.symm, resetAt, hDedupe⟩
    · simp only [hOld] at hj'
      exact Or.inl ⟨j', hj', rfl, rfl⟩

/-! ## The statements of a call -/

/-- One statement: an update of targets that keeps their sources or of jobs that keeps their
targets, the upsert of a target that meets `K`, or the insert of a job for a stored target. -/
inductive Statement (K : Target → Prop) : Db → Db → Prop
  | updateTargets (db : Db) (p : Target → Bool) {e : TargetEdit}
      (he : ∀ t, (e.set t).source = t.source) : Statement K db (db.updateTargets p e)
  | updateJobs (db : Db) (p : Job → Bool) {e : JobEdit}
      (he : ∀ j, (e.set j).targetID = j.targetID) : Statement K db (db.updateJobs p e)
  | upsert (db : Db) {new : Target} (hNew : K new) : Statement K db (db.upsertActivationTarget new)
  | createJob {db : Db} {stored : Target} (hStored : stored ∈ db.targets.rows) (o : Write)
      {j : Job} (hTarget : j.targetID = stored.id) {resetAt : Int}
      (hDedupe : j.dedupeKey = dedupeKey stored.targetKey resetAt) :
      Statement K db (db.createJob o j).1

abbrev Writes (K : Target → Prop) : Db → Db → Prop := Relation.ReflTransGen (Statement K)

section

variable {K : Target → Prop}

theorem Writes.follows (h : Writes K db db') : Follows db db' := by
  induction h with
  | refl => exact .refl db
  | tail _ hStep ih =>
    refine ih.trans ?_
    cases hStep with
    | updateTargets p _ => exact .updateTargets _ p _
    | updateJobs p he => exact .updateJobs _ p he
    | upsert _ => exact .upsert _ _
    | createJob hStored o hTarget hDedupe => exact .createJob hStored o hTarget hDedupe

theorem Writes.after (h : Writes K db db') (o : Write) : Writes K db (o.after db' db) :=
  o.after_rec h .refl

theorem Writes.cancel (db : Db) (now targetID : Int) (exceptDedupeKey : String) :
    Writes K db (db.cancelPendingActivationJobsForTarget now targetID exceptDedupeKey) :=
  .single (.updateJobs db _ fun _ => rfl)

theorem Writes.schedule {stored : Target} (hStored : stored ∈ db.targets.rows)
    (o : ScheduleOutcome) (now resetAt scheduledAt : Int) (trigger : String) :
    Writes K db (db.scheduleActivationJob o now stored.id stored.targetKey resetAt scheduledAt
      trigger).1 := by
  rcases scheduleActivationJob_fst db o now stored.id stored.targetKey resetAt scheduledAt
    trigger with hSame | hCreate
  · rw [hSame]
  · rw [hCreate]
    exact .single (.createJob hStored o.create rfl rfl)

theorem Writes.markMissing (db : Db) (now : Int) (sourceType : SourceType) (seen : List String) :
    Writes K db (db.markMissingActivationTargetsUnavailable now sourceType seen) :=
  .tail (.single (.updateTargets db _ fun _ => rfl)) (.updateJobs _ _ fun _ => rfl)

theorem Writes.reconcileOne {t : Turn} (hNew : K (t.snapshot.target t.now)) (db : Db) :
    Writes K db (reconcileOne t db).1 := by
  unfold Activation.reconcileOne
  dsimp only
  split
  · exact .refl
  · have hUpsert := Writes.after (.single (.upsert db hNew)) t.upsert
    refine hUpsert.trans ?_
    split
    · exact .refl
    · exact .refl
    · exact .refl
    · rename_i stored _ _ hFind
      split
      · exact (Writes.cancel _ _ _ _).after t.cancel
      · have hSchedule : Writes K _ _ := .schedule (findIndex?_eq_some.mp hFind).1
          t.schedule t.now t.snapshot.resetAt (t.snapshot.scheduledAt t.now) "automatic"
        split
        · rename_i hResult
          rwa [hResult] at hSchedule
        · rename_i hResult
          rw [hResult] at hSchedule
          exact hSchedule.trans ((Writes.cancel _ _ _ _).after t.cancel)

variable {turns : List Turn} (hTurns : ∀ t ∈ turns, K (t.snapshot.target t.now))

include hTurns

theorem Writes.reconcileLoop (db : Db) (seen scheduled : Nat) :
    Writes K db (reconcileLoop turns db seen scheduled).db := by
  induction turns generalizing db seen scheduled with
  | nil => exact .refl
  | cons t turns ih =>
    have hOne := Writes.reconcileOne (hTurns t mem_cons_self) db
    unfold Activation.reconcileLoop
    split
    · rename_i hResult
      rwa [hResult] at hOne
    · rename_i hResult
      rw [hResult] at hOne
      exact hOne.trans (ih (fun u hu => hTurns u (mem_cons_of_mem _ hu)) _ _ _)

theorem Writes.reconcile (markNow : Int) (mark : Write) (sourceType : SourceType) (db : Db) :
    Writes K db (reconcileActivationSnapshots turns markNow mark sourceType db).db := by
  have hLoop := Writes.reconcileLoop hTurns db 0 0
  unfold reconcileActivationSnapshots
  dsimp only
  split
  · exact hLoop
  · exact hLoop.trans ((Writes.markMissing _ _ _ _).after mark)

end

theorem Follows.reconcileOne (t : Turn) (db : Db) : Follows db (reconcileOne t db).1 :=
  (Writes.reconcileOne (K := fun _ => True) trivial db).follows

/-! ## One round -/

/-- Whether a job is scheduled for the snapshot, given whether the target is enabled. -/
def Snapshot.schedulable (s : Snapshot) (enabled : Bool) : Bool :=
  enabled && s.available && decide (0 < s.windowSeconds)

theorem schedulable_eq (s : Snapshot) (enabled : Bool) :
    (!enabled || !s.available || decide (s.windowSeconds ≤ 0)) = !s.schedulable enabled := by
  have hWindow : decide (s.windowSeconds ≤ 0) = !decide (0 < s.windowSeconds) := by
    rw [← decide_not, decide_eq_decide]
    omega
  rw [Snapshot.schedulable, hWindow, Bool.not_and, Bool.not_and]

variable {t : Turn}

/-- A round that succeeds: the target is stored, and its pending jobs are cancelled, or a job is
scheduled and the others are cancelled. -/
theorem reconcileOne_ok (h : reconcileOne t db = (db', .ok created)) :
    ∃ stored, (db.upsertActivationTarget (t.snapshot.target t.now)).targets.findIndex?
        t.snapshot.targetKey = some stored ∧
      ((t.snapshot.schedulable stored.enabled = false ∧
          db' = t.cancel.after ((db.upsertActivationTarget
            (t.snapshot.target t.now)).cancelPendingActivationJobsForTarget t.now stored.id "")
            (db.upsertActivationTarget (t.snapshot.target t.now))) ∨
        (t.snapshot.schedulable stored.enabled = true ∧ ∃ db₂ job,
          (db.upsertActivationTarget (t.snapshot.target t.now)).scheduleActivationJob t.schedule
            t.now stored.id stored.targetKey t.snapshot.resetAt (t.snapshot.scheduledAt t.now)
            "automatic" = (db₂, .ok (job, created)) ∧
          db' = t.cancel.after
            (db₂.cancelPendingActivationJobsForTarget t.now stored.id job.dedupeKey) db₂)) := by
  unfold reconcileOne at h
  dsimp only at h
  split at h
  · cases h
  · split at h
    · cases h
    · cases h
    · cases h
    · rename_i stored hUpsert _ hFind
      rw [error?_eq_none.mp hUpsert] at hFind h
      rw [Write.after_ok] at hFind h
      refine ⟨stored, hFind, ?_⟩
      rw [schedulable_eq] at h
      split at h
      · rename_i hNot
        cases h
        exact Or.inl ⟨by simpa using hNot, rfl⟩
      · rename_i hSchedulable
        right
        refine ⟨by simpa using hSchedulable, ?_⟩
        split at h
        · cases h
        · rename_i db₂ job created' hSchedule
          cases h
          exact ⟨db₂, job, hSchedule, rfl⟩

/-! ## What happens to a target -/

/-- The target with the key and the jobs for its reset times are as they were. -/
structure Untouched (k : String) (db db' : Db) : Prop where
  target : db'.targets.findIndex? k = db.targets.findIndex? k
  jobs : ∀ resetAt, db'.jobs.findIndex? (dedupeKey k resetAt) =
    db.jobs.findIndex? (dedupeKey k resetAt)

theorem Untouched.refl (k : String) (db : Db) : Untouched k db db := ⟨rfl, fun _ => rfl⟩

theorem Untouched.trans {db₁ db₂ db₃ : Db} (h : Untouched k db₁ db₂) (h' : Untouched k db₂ db₃) :
    Untouched k db₁ db₃ :=
  ⟨h'.target.trans h.target, fun resetAt => (h'.jobs resetAt).trans (h.jobs resetAt)⟩

theorem Untouched.after (h : Untouched k db db') (o : Write) : Untouched k db (o.after db' db) :=
  o.after_rec h (.refl k db)

theorem Untouched.updateJobs (hLinked : Linked db) {p : Job → Bool} {e : JobEdit}
    (hp : ∀ t ∈ db.targets.rows, t.targetKey = k → ∀ j ∈ db.jobs.rows, j.targetID = t.id → p j =
      false) : Untouched k db (db.updateJobs p e) where
  target := rfl
  jobs resetAt := by
    rw [Db.updateJobs, findIndex?_update]
    cases hFind : db.jobs.findIndex? (dedupeKey k resetAt) with
    | none => rfl
    | some j =>
      obtain ⟨hj, hDedupe⟩ := findIndex?_eq_some.mp hFind
      obtain ⟨t, ht, hId, resetAt', hKey⟩ := hLinked j hj
      have hk : t.targetKey = k := eq_of_append_colon_toString (hKey.symm.trans hDedupe)
      simp [hp t ht hk j hj hId.symm]

theorem Untouched.cancel (hLinked : Linked db) {now targetID : Int}
    (hOther : ∀ t ∈ db.targets.rows, t.targetKey = k → t.id ≠ targetID)
    (exceptDedupeKey : String) :
    Untouched k db (db.cancelPendingActivationJobsForTarget now targetID exceptDedupeKey) := by
  apply Untouched.updateJobs hLinked
  intro t ht hk j _ hTarget
  have hne : j.targetID ≠ targetID := by
    rw [hTarget]
    exact hOther t ht hk
  simp [hne]

theorem Untouched.upsert (db : Db) {new : Target} (hk : new.targetKey ≠ k) :
    Untouched k db (db.upsertActivationTarget new) where
  target := findIndex?_upsert_of_ne db hk
  jobs resetAt := by rw [jobs_upsert]

theorem Untouched.schedule {o : ScheduleOutcome} {now targetID : Int} {targetKey : String}
    {resetAt scheduledAt : Int} {trigger : String} {job : Job}
    (h : db.scheduleActivationJob o now targetID targetKey resetAt scheduledAt trigger = (db',
      .ok (job, created))) (hk : targetKey ≠ k) : Untouched k db db' := by
  rcases scheduleActivationJob_ok h with ⟨-, rfl⟩ | ⟨-, hTargets, hInsert, -, -, hDedupe⟩
  · exact .refl k db'
  · refine ⟨by rw [hTargets], ?_⟩
    intro resetAt'
    apply findIndex?_insert_of_ne hInsert
    rw [hDedupe]
    intro hEq
    exact hk (eq_of_append_colon_toString hEq)

theorem Untouched.reconcileOne (hLinked : Linked db) (h : reconcileOne t db = (db', .ok created))
    (hk : t.snapshot.targetKey ≠ k) : Untouched k db db' := by
  obtain ⟨stored, hFind, hRest⟩ := reconcileOne_ok h
  have hUpsert : Untouched k db (db.upsertActivationTarget (t.snapshot.target t.now)) :=
    .upsert db hk
  have hLinked₁ := (Follows.upsert db (t.snapshot.target t.now)).linked hLinked
  obtain ⟨hStored, hStoredKey⟩ := findIndex?_eq_some.mp hFind
  -- the target with the key is another one than the stored
  have hOther : ∀ u ∈ (db.upsertActivationTarget (t.snapshot.target t.now)).targets.rows,
      u.targetKey = k → u.id ≠ stored.id := by
    intro u hu huk hId
    rw [eq_of_key hu hStored hId, hStoredKey] at huk
    exact hk huk
  refine hUpsert.trans ?_
  rcases hRest with ⟨-, rfl⟩ | ⟨-, db₂, job, hSchedule, rfl⟩
  · exact (Untouched.cancel hLinked₁ hOther "").after t.cancel
  · have hWrites : Writes (fun _ => True) _ _ := .schedule hStored t.schedule t.now
      t.snapshot.resetAt (t.snapshot.scheduledAt t.now) "automatic"
    rw [hSchedule] at hWrites
    have hScheduled : Untouched k _ db₂ := .schedule hSchedule (by rwa [hStoredKey])
    refine hScheduled.trans ?_
    apply Untouched.after
    apply Untouched.cancel (hWrites.follows.linked hLinked₁)
    intro u hu huk
    have huFind : (db.upsertActivationTarget (t.snapshot.target t.now)).targets.findIndex? k =
        some u := by
      rw [← hScheduled.target]
      exact findIndex?_eq_some.mpr ⟨hu, huk⟩
    exact hOther u (findIndex?_eq_some.mp huFind).1 huk

def Db.enabledIn (db : Db) (k : String) : Bool :=
  ((db.targets.findIndex? k).map Target.enabled).getD true

/-- The status that the job with the dedupe key has; a new one is pending. -/
def Db.statusIn (db : Db) (dedupeKey : String) : JobStatus :=
  ((db.jobs.findIndex? dedupeKey).map Job.status).getD .pending

/-- What the round of a snapshot leaves: the stored target, and, if it is schedulable, the job for
its reset time with the status that it had before. -/
def Done (s : Snapshot) (db db' : Db) : Prop :=
  ∃ stored, db'.targets.findIndex? s.targetKey = some stored ∧ stored.resetAt = s.resetAt ∧
    stored.available = s.available ∧ stored.windowSeconds = s.windowSeconds ∧
    stored.enabled = db.enabledIn s.targetKey ∧
    (s.schedulable stored.enabled = true →
      ∃ j, db'.jobs.findIndex? (dedupeKey s.targetKey s.resetAt) = some j ∧
        j.status = db.statusIn (dedupeKey s.targetKey s.resetAt))

theorem dedupeKey_ne_empty (k : String) (resetAt : Int) : dedupeKey k resetAt ≠ "" := by
  intro h
  have hList := congrArg String.toList h
  simp [dedupeKey] at hList

theorem targets_after_cancel (db : Db) (o : Write) (now targetID : Int) (dedupe : String) :
    (o.after (db.cancelPendingActivationJobsForTarget now targetID dedupe) db).targets =
      db.targets := by
  apply Write.after_rec (P := fun db' : Db => db'.targets = db.targets) <;> rfl

theorem findIndex?_after_cancel (db : Db) (o : Write) (now targetID : Int) {dedupe : String}
    (h : dedupe ≠ "") :
    (o.after (db.cancelPendingActivationJobsForTarget now targetID dedupe) db).jobs.findIndex?
      dedupe = db.jobs.findIndex? dedupe := by
  rcases o.after_cases (db.cancelPendingActivationJobsForTarget now targetID dedupe) db with
    hNew | hOld
  · rw [hNew, Db.cancelPendingActivationJobsForTarget, Db.updateJobs, findIndex?_update]
    cases hFind : db.jobs.findIndex? dedupe with
    | none => rfl
    | some j =>
      have hDedupe := (findIndex?_eq_some.mp hFind).2
      simp [hDedupe, h]
  · rw [hOld]

theorem scheduleActivationJob_stored {o : ScheduleOutcome} {now targetID : Int}
    {targetKey : String} {resetAt scheduledAt : Int} {trigger : String} {job : Job}
    (h : db.scheduleActivationJob o now targetID targetKey resetAt scheduledAt trigger = (db',
      .ok (job, created))) :
    db'.targets = db.targets ∧ db'.jobs.findIndex? (dedupeKey targetKey resetAt) = some job ∧
      job.status = db.statusIn (dedupeKey targetKey resetAt) := by
  unfold Db.statusIn
  rcases scheduleActivationJob_ok h with ⟨hFound, rfl⟩ | ⟨hNone, hTargets, hInsert, hPending, -,
    hDedupe⟩
  · rw [hFound]
    exact ⟨rfl, rfl, rfl⟩
  · rw [hNone, ← hDedupe]
    exact ⟨hTargets, findIndex?_insert_self hInsert, hPending⟩

theorem reconcileOne_done (h : reconcileOne t db = (db', .ok created)) :
    Done t.snapshot db db' := by
  obtain ⟨stored, hFind, hRest⟩ := reconcileOne_ok h
  obtain ⟨stored', hFind', hReset, hAvailable, hWindow, hEnabled⟩ :=
    findIndex?_upsert db (t.snapshot.target t.now)
  obtain rfl : stored' = stored := Option.some.inj (hFind'.symm.trans hFind)
  have hKey : stored'.targetKey = t.snapshot.targetKey := (findIndex?_eq_some.mp hFind).2
  rcases hRest with ⟨hNot, rfl⟩ | ⟨-, db₂, job, hSchedule, rfl⟩
  · refine ⟨stored', ?_, hReset, hAvailable, hWindow, hEnabled, ?_⟩
    · rw [targets_after_cancel]
      exact hFind
    · intro hSchedulable
      rw [hNot] at hSchedulable
      cases hSchedulable
  · rw [hKey] at hSchedule
    obtain ⟨hTargets, hJob, hStatus⟩ := scheduleActivationJob_stored hSchedule
    have hDedupe := (findIndex?_eq_some.mp hJob).2
    refine ⟨stored', ?_, hReset, hAvailable, hWindow, hEnabled, fun _ => ⟨job, ?_, ?_⟩⟩
    · rw [targets_after_cancel, hTargets]
      exact hFind
    · rw [hDedupe, findIndex?_after_cancel _ _ _ _ (dedupeKey_ne_empty _ _)]
      exact hJob
    · rw [hStatus, Db.statusIn, jobs_upsert]
      rfl

theorem Done.before {s : Snapshot} {db₁ db₂ db₃ : Db} (hUntouched : Untouched s.targetKey db₁ db₂)
    (h : Done s db₂ db₃) : Done s db₁ db₃ := by
  unfold Done Db.enabledIn Db.statusIn at h ⊢
  rwa [hUntouched.target, hUntouched.jobs] at h

theorem Done.later {s : Snapshot} {db₁ db₂ db₃ : Db} (h : Done s db₁ db₂)
    (hUntouched : Untouched s.targetKey db₂ db₃) : Done s db₁ db₃ := by
  unfold Done at h ⊢
  rwa [hUntouched.target, hUntouched.jobs]

/-- The targets that are not in the list are left to the last transaction. -/
theorem Untouched.reconcileLoop {turns : List Turn} (hLinked : Linked db) {seen scheduled : Nat}
    (h : (reconcileLoop turns db seen scheduled).error = none) (hk : k ∉ seenKeys turns) :
    Untouched k db (reconcileLoop turns db seen scheduled).db := by
  induction turns generalizing db seen scheduled with
  | nil => exact .refl k db
  | cons t turns ih =>
    simp only [seenKeys, map_cons, mem_cons, not_or] at hk
    have hFollows := Follows.reconcileOne t db
    unfold Activation.reconcileLoop at h ⊢
    split at h
    · cases h
    · rename_i hOne
      rw [hOne] at hFollows
      exact (Untouched.reconcileOne hLinked hOne (Ne.symm hk.1)).trans
        (ih (hFollows.linked hLinked) h hk.2)

/-- A loop over different targets does the round of each. -/
theorem reconcileLoop_done {turns : List Turn} (hLinked : Linked db)
    (hKeys : (seenKeys turns).Nodup) {seen scheduled : Nat}
    (h : (reconcileLoop turns db seen scheduled).error = none) (ht : t ∈ turns) :
    Done t.snapshot db (reconcileLoop turns db seen scheduled).db := by
  induction turns generalizing db seen scheduled with
  | nil => cases ht
  | cons u turns ih =>
    simp only [seenKeys, map_cons, nodup_cons] at hKeys
    have hFollows := Follows.reconcileOne u db
    unfold reconcileLoop at h ⊢
    split at h
    · cases h
    · rename_i hOne
      rw [hOne] at hFollows
      have hLinked' := hFollows.linked hLinked
      rcases mem_cons.mp ht with rfl | ht
      · exact (reconcileOne_done hOne).later (.reconcileLoop hLinked' h hKeys.1)
      · have hne : u.snapshot.targetKey ≠ t.snapshot.targetKey := by
          intro hEq
          apply hKeys.1
          rw [hEq]
          exact mem_map_of_mem (f := fun t => t.snapshot.targetKey) ht
        exact (ih hLinked' hKeys.2 h ht).before (.reconcileOne hLinked hOne hne)

/-- Ids are unique, so that the last transaction selects the targets that are missing. -/
theorem contains_missing {t : Target} (ht : t ∈ db.targets.rows) (sourceType : SourceType)
    (seen : List String) :
    ((db.targets.rows.filter (Target.isMissing sourceType seen)).map Target.id).contains t.id =
      t.isMissing sourceType seen := by
  rw [Bool.eq_iff_iff, contains_iff_mem, mem_map]
  constructor
  · rintro ⟨u, hu, hId⟩
    obtain ⟨hu, hMissing⟩ := mem_filter.mp hu
    rwa [← eq_of_key hu ht hId]
  · exact fun hMissing => ⟨t, mem_filter.mpr ⟨ht, hMissing⟩, rfl⟩

theorem Untouched.markMissing (hLinked : Linked db) (now : Int) (sourceType : SourceType)
    {seen : List String} (hk : k ∈ seen) :
    Untouched k db (db.markMissingActivationTargetsUnavailable now sourceType seen) := by
  have hIds : ∀ t ∈ db.targets.rows, t.targetKey = k →
      ((db.targets.rows.filter (Target.isMissing sourceType seen)).map Target.id).contains t.id =
        false := by
    intro t ht htk
    rw [contains_missing ht, Target.isMissing, htk, contains_iff_mem.mpr hk,
      isEmpty_eq_false_iff.mpr (ne_nil_of_mem hk)]
    exact Bool.and_false _
  have hJobs := Untouched.updateJobs hLinked (k := k) (e := JobEdit.cancel now)
    (p := fun j => ((db.targets.rows.filter (Target.isMissing sourceType seen)).map
      Target.id).contains j.targetID && j.status = .pending) (by
      intro t ht htk j _ hTarget
      rw [hTarget, hIds t ht htk, Bool.false_and])
  refine ⟨?_, hJobs.jobs⟩
  rw [Db.markMissingActivationTargetsUnavailable, findIndex?_update]
  cases hFind : db.targets.findIndex? k with
  | none => rfl
  | some t =>
    obtain ⟨ht, htk⟩ := findIndex?_eq_some.mp hFind
    rw [Option.map_some, hIds t ht htk]
    rfl

/-- A successful call over different targets does the round of each, and nothing else to them. -/
theorem reconcile_done {turns : List Turn} (hLinked : Linked db) (hKeys : (seenKeys turns).Nodup)
    {markNow : Int} {mark : Write} {sourceType : SourceType}
    (h : (reconcileActivationSnapshots turns markNow mark sourceType db).error = none)
    (ht : t ∈ turns) :
    Done t.snapshot db (reconcileActivationSnapshots turns markNow mark sourceType db).db := by
  unfold reconcileActivationSnapshots at h ⊢
  dsimp only at h ⊢
  split at h
  · rename_i hError
    rw [h] at hError
    cases hError
  · rename_i hLoop
    have hWrites : Writes (fun _ => True) db (reconcileLoop turns db 0 0).db :=
      .reconcileLoop (fun _ _ => trivial) db 0 0
    have hLinked' := hWrites.follows.linked hLinked
    have hSeen : t.snapshot.targetKey ∈ seenKeys turns :=
      mem_map_of_mem (f := fun t => t.snapshot.targetKey) ht
    exact (reconcileLoop_done hLinked hKeys hLoop ht).later
      ((Untouched.markMissing hLinked' markNow sourceType hSeen).after mark)

def sampleTurn (channelID resetAt : Int) : Turn where
  snapshot :=
    { targetKey := "channel:" ++ toString channelID
      source := .codexChannel channelID
      displayName := "codex"
      planType := "plus"
      available := true
      windowSeconds := 18000
      resetAt := resetAt
      metadata := "" }
  now := 1000
  upsert := .ok
  get := none
  schedule := ⟨.ok, none⟩
  cancel := .ok

end Qapi.Activation
