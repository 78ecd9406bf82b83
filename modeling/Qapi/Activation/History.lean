import Qapi.Activation.Execute

/-!
# Histories of the activation queue

The calls that write the queue, one after the other from the empty tables. Over every
history jobs belong to their targets; with snapshots that carry the keys of their sources,
targets have them too. After a history, a reconciliation leaves a listed target with a job
for its reset time, unless that job has been cancelled before.
-/

namespace Qapi.Activation

open Qapi.Core Indexed List
open Async (Write)

inductive Op
  | reconcile (turns : List Turn) (markNow : Int) (mark : Write) (sourceType : SourceType)
  | claim (o : ClaimOutcome) (now : Int)
  | execute (e : Execution) (job : Job)
  | resetStale (now staleBefore : Int)
  | setEnabled (now id : Int) (enabled : Bool)
  | disableSource (now : Int) (source : Source) (outcomes : List (Write × Write))
  | cancelPending (now targetID : Int) (exceptDedupeKey : String)
  | runNow (now id : Int)
  | snooze (now id scheduledAt : Int)
  | skip (now id : Int)

def Op.apply (hash : String → String) (db : Db) : Op → Db
  | .reconcile turns markNow mark sourceType =>
    (reconcileActivationSnapshots turns markNow mark sourceType db).db
  | .claim o now => (db.claimNextDueActivationJob o now).1
  | .execute e job => executeActivationJob hash e job db
  | .resetStale now staleBefore => db.resetStaleActivationJobs now staleBefore
  | .setEnabled now id enabled => db.setActivationTargetEnabled now id enabled
  | .disableSource now source outcomes => db.disableActivationSource now source outcomes
  | .cancelPending now targetID exceptDedupeKey =>
    db.cancelPendingActivationJobsForTarget now targetID exceptDedupeKey
  | .runNow now id => db.runActivationJobNow now id
  | .snooze now id scheduledAt => db.snoozeActivationJob now id scheduledAt
  | .skip now id => db.skipActivationJob now id

def history (hash : String → String) (ops : List Op) : Db := run (Op.apply hash) Db.empty ops

/-! ## The statements of the calls -/

section

variable {K : Target → Prop}

theorem Writes.claim (db : Db) (o : ClaimOutcome) (now : Int) :
    Writes K db (db.claimNextDueActivationJob o now).1 := by
  have hClaim : ∀ id, Writes K db (o.update.after (db.claimJob now id) db) :=
    fun id => Writes.after (.single (.updateJobs db _ fun _ => rfl)) o.update
  unfold Db.claimNextDueActivationJob
  split
  · exact .refl
  · exact .refl
  · dsimp only
    split <;> exact hClaim _

theorem Writes.disable (now : Int) (ids : List Int) (outcomes : List (Write × Write)) (db : Db) :
    Writes K db (Db.disableActivationSource.disable now ids outcomes db) := by
  induction ids generalizing outcomes db with
  | nil =>
    exact .refl
  | cons id ids ih =>
    cases outcomes with
    | nil =>
      exact .refl
    | cons o outcomes =>
      have hTarget : Writes K db (o.1.after (db.updateTargets (fun t => t.id = id) (.archive now))
          db) := Writes.after (.single (.updateTargets db _ fun _ => rfl)) o.1
      unfold Db.disableActivationSource.disable
      split
      · exact hTarget
      · have hCancel := hTarget.trans ((Writes.cancel _ now id "").after o.2)
        split
        · exact hCancel
        · exact hCancel.trans (ih outcomes _)

theorem Writes.execute {hash : String → String}
    (hKeys : ∀ new : Target, new.source.key hash = .ok new.targetKey → K new) (e : Execution)
    (job : Job) (db : Db) : Writes K db (executeActivationJob hash e job db) := by
  have hWrite : ∀ v : Verdict, Writes K db (e.finish.after (v.writeJob e.finishNow job.id db)
      db) := by
    intro v
    obtain ⟨edit, hEdit, hWrite⟩ := v.writeJob_eq e.finishNow job.id db
    rw [hWrite]
    exact Writes.after (.single (.updateJobs db _ hEdit)) e.finish
  have hResult : ∀ (db : Db) (id : Int) (status errorMessage : String) (resetAt activatedAt : Int),
      Writes K db (e.result.after (db.updateActivationTargetResult e.resultNow id status
        errorMessage resetAt activatedAt) db) :=
    fun db _ _ _ _ _ => Writes.after (.single (.updateTargets db _ fun _ => rfl)) e.result
  unfold executeActivationJob
  dsimp only
  split
  · exact hWrite _
  · exact hWrite _
  · exact (hWrite _).trans (hResult _ _ _ _ _ _)
  · rename_i target snapshot status resultText targetStatus activatedAt hVerdict
    obtain ⟨-, -, -, -, key, p, hKey, -, rfl⟩ := verdict_renew hVerdict
    refine ((hWrite _).trans (hResult _ _ _ _ _ _)).trans
      (Writes.reconcile ?_ _ _ _ _)
    intro t ht
    rw [mem_singleton.mp ht]
    exact hKeys _ hKey

theorem Writes.apply {hash : String → String}
    (hKeys : ∀ new : Target, new.source.key hash = .ok new.targetKey → K new) {op : Op}
    (hTurns : ∀ turns markNow mark sourceType, op = .reconcile turns markNow mark sourceType →
      ∀ t ∈ turns, K (t.snapshot.target t.now)) (db : Db) : Writes K db (op.apply hash db) := by
  cases op with
  | reconcile turns markNow mark sourceType => exact .reconcile (hTurns _ _ _ _ rfl) _ _ _ _
  | claim o now => exact .claim db o now
  | execute e job => exact .execute hKeys e job db
  | resetStale now staleBefore | runNow now id | snooze now id scheduledAt | skip now id =>
    exact .single (.updateJobs db _ fun _ => rfl)
  | setEnabled now id enabled => exact .single (.updateTargets db _ fun _ => rfl)
  | disableSource now source outcomes => exact .disable now _ outcomes db
  | cancelPending now targetID exceptDedupeKey => exact .cancel db _ _ _

end

/-! ## Jobs belong to their targets -/

theorem linked_history (hash : String → String) (ops : List Op) : Linked (history hash ops) := by
  apply run_invariant (I := Linked)
  · intro db op hLinked
    have hWrites : Writes (fun _ => True) db (op.apply hash db) :=
      .apply (fun _ _ => trivial) (fun _ _ _ _ _ _ _ => trivial) db
    exact hWrites.follows.linked hLinked
  · intro j hj
    cases hj

/-! ## Targets have the keys of their sources -/

variable {hash : String → String} {db : Db}

theorem Sound.updateTargets (h : Sound hash db) (p : Target → Bool) {e : TargetEdit}
    (he : ∀ t, (e.set t).source = t.source) : Sound hash (db.updateTargets p e) := by
  constructor
  · intro t ht
    obtain ⟨u, hu, rfl⟩ := mem_update.mp ht
    split
    · rw [e.key_set]
      exact h.pos u hu
    · exact h.pos u hu
  · intro t ht
    obtain ⟨u, hu, rfl⟩ := mem_update.mp ht
    split
    · rw [he, e.index_set]
      exact h.keyed u hu
    · exact h.keyed u hu

theorem Sound.upsert (h : Sound hash db) {new : Target}
    (hNew : new.source.key hash = .ok new.targetKey) :
    Sound hash (db.upsertActivationTarget new) := by
  unfold Db.upsertActivationTarget
  split
  · constructor
    · intro t ht
      obtain ⟨u, hu, rfl⟩ := mem_update.mp ht
      split <;> exact h.pos u hu
    · intro t ht
      obtain ⟨u, hu, rfl⟩ := mem_update.mp ht
      split
      · rename_i hKey
        exact hNew.trans (congrArg Except.ok (of_decide_eq_true hKey).symm)
      · exact h.keyed u hu
  · split
    · rename_i targets hInsert
      constructor
      · intro t ht
        simp only [rows_insert hInsert, mem_append, mem_singleton] at ht
        rcases ht with ht | rfl
        · exact h.pos t ht
        · exact nextId_pos _
      · intro t ht
        simp only [rows_insert hInsert, mem_append, mem_singleton] at ht
        rcases ht with ht | rfl
        · exact h.keyed t ht
        · exact hNew
    · exact h

theorem Sound.writes {db' : Db} (h : Sound hash db)
    (hWrites : Writes (fun new => new.source.key hash = .ok new.targetKey) db db') :
    Sound hash db' := by
  induction hWrites with
  | refl => exact h
  | tail _ hStep ih =>
    cases hStep with
    | updateTargets p he => exact ih.updateTargets p he
    | updateJobs p _ => exact ⟨ih.pos, ih.keyed⟩
    | upsert hNew => exact ih.upsert hNew
    | createJob _ o _ _ =>
      unfold Db.createJob
      split <;> exact ⟨ih.pos, ih.keyed⟩

/-- The snapshot carries the key of its source, as those of the probes do. -/
def Snapshot.Keyed (hash : String → String) (s : Snapshot) :
    Prop := s.source.key hash = .ok s.targetKey

/-- The snapshots that the call is given carry the keys of their sources. -/
def Op.Keyed (hash : String → String) : Op → Prop
  | .reconcile turns _ _ _ => ∀ t ∈ turns, t.snapshot.Keyed hash
  | _ => True

theorem sound_history (hash : String → String) {ops : List Op}
    (hKeyed : Guarded (Op.apply hash) (fun _ op => op.Keyed hash) Db.empty ops) :
    Sound hash (history hash ops) := by
  have hEmpty : Sound hash Db.empty := by
    constructor <;> intro t ht <;> cases ht
  refine Guarded.invariant (fun db op h hOp => h.writes (.apply (fun _ hKey => hKey) ?_ db)) hEmpty
    hKeyed
  rintro turns markNow mark sourceType rfl
  exact hOp

/-! ## Idle targets -/

def JobStatus.isLive : JobStatus → Bool
  | .pending | .running => true
  | _ => false

def JobStatus.isEnded : JobStatus → Bool
  | .succeeded | .failed | .skipped => true
  | _ => false

theorem isLive_or_isEnded {status : JobStatus} :
    (status.isLive = true ∨ status.isEnded = true) ↔ status ≠ .cancelled := by
  cases status <;> simp [JobStatus.isLive, JobStatus.isEnded]

/-- Every listed target that is enabled, available and has a window has a job for its reset time
that is live, or that has ended. -/
def NoneIdle (turns : List Turn) (db : Db) : Prop :=
  ∀ turn ∈ turns, ∀ t ∈ db.targets.rows, t.targetKey = turn.snapshot.targetKey → t.enabled = true →
    t.available = true → 0 < t.windowSeconds →
    ∃ j ∈ db.jobs.rows, j.dedupeKey = dedupeKey t.targetKey t.resetAt ∧
      (j.status.isLive = true ∨ j.status.isEnded = true)

/-- No job for the reset time of a snapshot that is to be scheduled is cancelled. -/
def NoneCancelled (turns : List Turn) (db : Db) : Prop :=
  ∀ turn ∈ turns, turn.snapshot.schedulable (db.enabledIn turn.snapshot.targetKey) = true →
    ∀ j ∈ db.jobs.rows, j.dedupeKey = dedupeKey turn.snapshot.targetKey turn.snapshot.resetAt →
      j.status ≠ .cancelled

theorem statusIn_of_mem {j : Job} (hj : j ∈ db.jobs.rows) : db.statusIn j.dedupeKey = j.status := by
  have hFind : db.jobs.findIndex? j.dedupeKey = some j := findIndex?_eq_some.mpr ⟨hj, rfl⟩
  rw [Db.statusIn, hFind]
  rfl

theorem statusIn_ne_cancelled {dedupe : String} :
    db.statusIn dedupe ≠ .cancelled ↔ ∀ j ∈ db.jobs.rows, j.dedupeKey = dedupe →
      j.status ≠ .cancelled := by
  constructor
  · intro h j hj hDedupe
    rwa [← statusIn_of_mem hj, hDedupe]
  · intro h
    unfold Db.statusIn
    cases hFind : db.jobs.findIndex? dedupe with
    | none => simp
    | some j =>
      obtain ⟨hj, hDedupe⟩ := findIndex?_eq_some.mp hFind
      exact h j hj hDedupe

/-- After any history, a successful reconciliation of different targets leaves none of them idle
exactly when it has not to schedule what has been cancelled. -/
theorem noneIdle_iff (hash : String → String) (ops : List Op) (turns : List Turn) (markNow : Int)
    (mark : Write) (sourceType : SourceType) (hKeys : (seenKeys turns).Nodup)
    (hOk : (reconcileActivationSnapshots turns markNow mark sourceType (history hash ops)).error =
      none) :
    NoneIdle turns
        (reconcileActivationSnapshots turns markNow mark sourceType (history hash ops)).db ↔
      NoneCancelled turns (history hash ops) := by
  have hDone : ∀ turn ∈ turns, Done turn.snapshot (history hash ops)
      (reconcileActivationSnapshots turns markNow mark sourceType (history hash ops)).db :=
    fun turn hTurn => reconcile_done (linked_history hash ops) hKeys hOk hTurn
  generalize (reconcileActivationSnapshots turns markNow mark sourceType (history hash ops)).db =
    db' at hDone ⊢
  generalize history hash ops = db at hDone ⊢
  constructor
  · intro hNoneIdle turn hTurn hSchedulable
    rw [← statusIn_ne_cancelled]
    obtain ⟨stored, hFind, hReset, hAvailable, hWindow, hEnabled, hJob⟩ := hDone turn hTurn
    obtain ⟨hStored, hKey⟩ := findIndex?_eq_some.mp hFind
    rw [← hEnabled] at hSchedulable
    obtain ⟨j, hFindJob, hStatus⟩ := hJob hSchedulable
    obtain ⟨hj, hDedupe⟩ := findIndex?_eq_some.mp hFindJob
    simp only [Snapshot.schedulable, Bool.and_eq_true, decide_eq_true_eq] at hSchedulable
    obtain ⟨i, hi, hDedupe', hLive⟩ := hNoneIdle turn hTurn stored hStored hKey hSchedulable.1.1
      (hAvailable.trans hSchedulable.1.2) (hWindow ▸ hSchedulable.2)
    rw [hKey, hReset] at hDedupe'
    obtain rfl : i = j := eq_of_index hi hj (hDedupe'.trans hDedupe.symm)
    rw [← hStatus]
    exact isLive_or_isEnded.mp hLive
  · intro hNone turn hTurn t ht hKey hEnabledT hAvailableT hWindowT
    obtain ⟨stored, hFind, hReset, hAvailable, hWindow, hEnabled, hJob⟩ := hDone turn hTurn
    obtain ⟨hStored, hStoredKey⟩ := findIndex?_eq_some.mp hFind
    obtain rfl : t = stored := eq_of_index ht hStored (hKey.trans hStoredKey.symm)
    have hSchedulable : turn.snapshot.schedulable t.enabled = true := by
      rw [Snapshot.schedulable, ← hAvailable, ← hWindow, hEnabledT, hAvailableT,
        decide_eq_true hWindowT]
      rfl
    obtain ⟨j, hFindJob, hStatus⟩ := hJob hSchedulable
    obtain ⟨hj, hDedupe⟩ := findIndex?_eq_some.mp hFindJob
    refine ⟨j, hj, ?_, ?_⟩
    · rw [hKey, hReset]
      exact hDedupe
    · rw [isLive_or_isEnded, hStatus, statusIn_ne_cancelled]
      apply hNone turn hTurn
      rwa [← hEnabled]

/-- Two channels, of which the first is disabled and enabled again. -/
def twoToggled : List Op :=
  [.reconcile [sampleTurn 1 5000, sampleTurn 2 6000] 1000 .ok .codexChannel,
    .setEnabled 1001 1 false,
    .reconcile [sampleTurn 1 5000, sampleTurn 2 6000] 1002 .ok .codexChannel,
    .setEnabled 1003 1 true]

/-- The job of the first channel has been cancelled, and there is a job for its next reset. -/
theorem noneIdle_iff_twoToggled :
    NoneIdle [sampleTurn 1 23000, sampleTurn 2 6000]
      (reconcileActivationSnapshots [sampleTurn 1 23000, sampleTurn 2 6000] 1004 .ok
        .codexChannel (history id twoToggled)).db := by
  have hNone : NoneCancelled [sampleTurn 1 23000, sampleTurn 2 6000] (history id twoToggled) := by
    unfold NoneCancelled
    decide
  exact (noneIdle_iff id twoToggled _ 1004 .ok .codexChannel (by decide) (by decide)).mpr hNone

def toggled : Db :=
  history id
    [.reconcile [sampleTurn 1 5000] 1000 .ok .codexChannel, .setEnabled 1001 1 false,
      .reconcile [sampleTurn 1 5000] 1002 .ok .codexChannel, .setEnabled 1003 1 true]

/-- The next reconciliation succeeds, and leaves the channel with nothing but the cancelled job. -/
theorem toggled_stays_idle :
    (reconcileActivationSnapshots [sampleTurn 1 5000] 1004 .ok .codexChannel toggled).error = none ∧
      (reconcileActivationSnapshots [sampleTurn 1 5000] 1004 .ok .codexChannel
        toggled).db.targets.rows.map (fun t => (t.targetKey, t.enabled, t.available,
          t.windowSeconds, t.resetAt)) = [("channel:1", true, true, 18000, 5000)] ∧
      (reconcileActivationSnapshots [sampleTurn 1 5000] 1004 .ok .codexChannel
        toggled).db.jobs.rows.map (fun j => (j.dedupeKey, j.status)) =
          [("channel:1:5000", .cancelled)] := by
  decide

theorem sound_history_toggled : Sound id toggled :=
  sound_history id (by simp [Op.Keyed, Snapshot.Keyed, sampleTurn, Source.key])

end Qapi.Activation
