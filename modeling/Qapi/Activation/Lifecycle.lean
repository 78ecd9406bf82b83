import Qapi.Core.Agents
import Qapi.Activation.Execute

/-!
# The life cycle of activation jobs

Executors that claim jobs, execute them and write the outcome, statement by statement, and
in between them stale recovery and the calls of the administrator. `FinishActivationJob`
and `RetryActivationJob` do not look at the status of the job, and neither does
`SkipActivationJob`, unlike `RunActivationJobNow` and `SnoozeActivationJob`. As long as
nobody skips a job that is over or held by an executor, and stale recovery finds no job
that is still held, a job has one executor at most, and a job that is over stays so.
-/

namespace Qapi.Activation

open Qapi.Core List Function Bool
open Async (Write)

/-! ## Executors -/

/-- Where an executor is: each phase names what comes next. -/
inductive Phase
  | idle
  | found (id now : Int)
  | claimed (id : Int)
  | executing (job : Job)
  | concluding (job : Job) (outcome : Verdict)
deriving DecidableEq, Repr

def Phase.held : Phase → List Int
  | .idle | .found _ _ => []
  | .claimed id => [id]
  | .executing job | .concluding job _ => [job.id]

structure Queue (T : Type*) where
  db : Db
  phase : T → Phase

/-- The statements. The first six are those of an executor; the others, which are issued by the
dispatcher, by reconciliations and by the administrator, are those that take effect. -/
inductive Action (T : Type*)
  | find (w : T) (o : Option Err) (now : Int)
  | update (w : T) (o : Write)
  | reload (w : T) (o : Option Err)
  | decide (w : T) (e : Execution)
  | conclude (w : T) (o : Write) (now : Int)
  | crash (w : T)
  | resetStale (now staleBefore : Int)
  | runNow (now id : Int)
  | snooze (now id scheduledAt : Int)
  | skip (now id : Int)
  | cancelPending (now targetID : Int) (exceptDedupeKey : String)
  | markMissing (now : Int) (sourceType : SourceType) (seen : List String)
  | schedule (o : ScheduleOutcome) (now targetID : Int) (targetKey : String)
      (resetAt scheduledAt : Int) (trigger : String)
  | writeTargets (targets : Indexed Target.id Target.targetKey)

section

variable {T : Type*} [DecidableEq T] (hash : String → String)

def Queue.goto (s : Queue T) (w : T) (p : Phase) : Queue T :=
  { s with phase := update s.phase w p }

def step (s : Queue T) : Action T → Queue T
  | .find w o now =>
    match s.phase w, o, s.db.nextDue now with
    | .idle, none, some job => s.goto w (.found job.id now)
    | _, _, _ => s
  | .update w o =>
    match s.phase w with
    | .found id now =>
      { db := o.after (s.db.claimJob now id) s.db
        phase := update s.phase w
          (if o = .ok ∧ s.db.claimable id = true then .claimed id else .idle) }
    | _ => s
  | .reload w o =>
    match s.phase w with
    | .claimed id =>
      match o, s.db.jobs.find? id with
      | none, some job => s.goto w (.executing job)
      | _, _ => s.goto w .idle
    | _ => s
  | .decide w e =>
    match s.phase w with
    | .executing job =>
      s.goto w (.concluding job (verdict hash e job (s.db.getActivationTarget job.targetID)))
    | _ => s
  | .conclude w o now =>
    match s.phase w with
    | .concluding job outcome =>
      { db := o.after (outcome.writeJob now job.id s.db) s.db
        phase := update s.phase w .idle }
    | _ => s
  | .crash w => s.goto w .idle
  | .resetStale now staleBefore => { s with db := s.db.resetStaleActivationJobs now staleBefore }
  | .runNow now id => { s with db := s.db.runActivationJobNow now id }
  | .snooze now id scheduledAt => { s with db := s.db.snoozeActivationJob now id scheduledAt }
  | .skip now id => { s with db := s.db.skipActivationJob now id }
  | .cancelPending now targetID exceptDedupeKey =>
    { s with db := s.db.cancelPendingActivationJobsForTarget now targetID exceptDedupeKey }
  | .markMissing now sourceType seen =>
    { s with db := s.db.markMissingActivationTargetsUnavailable now sourceType seen }
  | .schedule o now targetID targetKey resetAt scheduledAt trigger =>
    { s with db :=
        (s.db.scheduleActivationJob o now targetID targetKey resetAt scheduledAt trigger).1 }
  | .writeTargets targets => { s with db := { s.db with targets := targets } }

def start (db : Db) : Queue T := ⟨db, fun _ => .idle⟩

/-! ## What a step does to a job -/

inductive Move (s : Queue T) (a : Action T) (j : Job) : JobStatus → Prop
  | stay : Move s a j j.status
  | claim : j.status = .pending → (∃ w now, s.phase w = .found j.id now) → Move s a j .running
  | conclude (w : T) (o : Write) (now : Int) (job : Job) (outcome : Verdict) (status : JobStatus) :
      a = .conclude w o now → s.phase w = .concluding job outcome → job.id = j.id →
        Move s a j status
  | cancel : j.status = .pending → Move s a j .cancelled
  | recover (now staleBefore : Int) :
      a = .resetStale now staleBefore → j.stale staleBefore = true → Move s a j .pending
  | runNow (now : Int) :
      a = .runNow now j.id → j.status = .pending ∨ j.status = .failed → Move s a j .pending
  | skip (now : Int) : a = .skip now j.id → Move s a j .skipped

theorem exists_updateJobs (db : Db) (p : Job → Bool) (e : JobEdit) {j : Job}
    (hj : j ∈ db.jobs.rows) : ∃ j' ∈ (db.updateJobs p e).jobs.rows, j'.id = j.id ∧
      j'.status = if p j then (e.set j).status else j.status := by
  refine ⟨_, Indexed.mem_update.mpr ⟨j, hj, rfl⟩, ?_, ?_⟩
  · split
    · exact e.key_set j
    · rfl
  · split <;> rfl

theorem exists_schedule (db : Db) (o : ScheduleOutcome) (now targetID : Int) (targetKey : String)
    (resetAt scheduledAt : Int) (trigger : String) {j : Job} (hj : j ∈ db.jobs.rows) :
    j ∈ (db.scheduleActivationJob o now targetID targetKey resetAt scheduledAt
      trigger).1.jobs.rows := by
  rcases scheduleActivationJob_fst db o now targetID targetKey resetAt scheduledAt trigger with
    hSame | hCreate
  · rwa [hSame]
  · rw [hCreate, Db.createJob]
    split
    · rename_i jobs hInsert
      rcases o.create.after_cases jobs db.jobs with hNew | hOld
      · simp only [hNew, Indexed.rows_insert hInsert]
        exact mem_append_left _ hj
      · simp only [hOld]
        exact hj
    · exact hj

/-- Everything that a step can do to a job. -/
theorem step_move (s : Queue T) (a : Action T) {j : Job} (hj : j ∈ s.db.jobs.rows) :
    ∃ j' ∈ (step hash s a).db.jobs.rows, j'.id = j.id ∧ Move s a j j'.status := by
  have hStay : ∃ j' ∈ s.db.jobs.rows, j'.id = j.id ∧ Move s a j j'.status := ⟨j, hj, rfl, .stay⟩
  -- an update sets the status of the jobs that meet its condition
  have hUpdate : ∀ (p : Job → Bool) (e : JobEdit), (p j = true → Move s a j (e.set j).status) →
      ∃ j' ∈ (s.db.updateJobs p e).jobs.rows, j'.id = j.id ∧ Move s a j j'.status := by
    intro p e hMove
    obtain ⟨j', hj', hId, hStatus⟩ := exists_updateJobs s.db p e hj
    refine ⟨j', hj', hId, ?_⟩
    rw [hStatus]
    split
    · rename_i hp
      exact hMove hp
    · exact .stay
  cases a with
  | find w o now | decide w e =>
    unfold step
    dsimp only
    split <;> exact hStay
  | update w o =>
    unfold step
    dsimp only
    split
    · rename_i id now hPhase
      have hClaim := hUpdate (fun j => j.id = id && j.status = .pending) (.claim now) (by
        intro hp
        simp only [and_eq_true, decide_eq_true_eq] at hp
        exact .claim hp.2 ⟨w, now, by rw [hPhase, hp.1]⟩)
      exact o.after_rec (P := fun db : Db => ∃ j' ∈ db.jobs.rows, j'.id = j.id ∧ Move s _ j j'.status)
        hClaim hStay
    · exact hStay
  | reload w o =>
    unfold step
    dsimp only
    split
    · split <;> exact hStay
    · exact hStay
  | conclude w o now =>
    unfold step
    dsimp only
    split
    · rename_i job outcome hPhase
      obtain ⟨e, -, hWrite⟩ := outcome.writeJob_eq now job.id s.db
      have hConclude := hUpdate (fun j => j.id = job.id) e (by
        intro hp
        exact .conclude w o now job outcome _ rfl hPhase (of_decide_eq_true hp).symm)
      rw [hWrite]
      exact o.after_rec (P := fun db : Db => ∃ j' ∈ db.jobs.rows, j'.id = j.id ∧ Move s _ j j'.status)
        hConclude hStay
    · exact hStay
  | crash w => exact hStay
  | resetStale now staleBefore => exact hUpdate _ _ fun hp => .recover now staleBefore rfl hp
  | runNow now id =>
    apply hUpdate
    intro hp
    simp only [and_eq_true, or_eq_true, decide_eq_true_eq] at hp
    exact .runNow now (by rw [hp.1]) hp.2
  | snooze now id scheduledAt => exact hUpdate _ _ fun _ => .stay
  | skip now id =>
    apply hUpdate
    intro hp
    exact .skip now (by rw [of_decide_eq_true hp])
  | cancelPending now targetID exceptDedupeKey =>
    apply hUpdate
    intro hp
    simp only [and_eq_true, decide_eq_true_eq] at hp
    exact .cancel hp.1.2
  | markMissing now sourceType seen =>
    have hCancel := hUpdate (fun j => ((s.db.targets.rows.filter
      (Target.isMissing sourceType seen)).map
      Target.id).contains j.targetID && j.status = .pending) (.cancel now) (by
        intro hp
        simp only [and_eq_true, decide_eq_true_eq] at hp
        exact .cancel hp.2)
    exact hCancel
  | schedule o now targetID targetKey resetAt scheduledAt trigger =>
    exact ⟨j, exists_schedule s.db o now targetID targetKey resetAt scheduledAt trigger hj, rfl,
      .stay⟩
  | writeTargets targets => exact hStay

/-! ## What is allowed -/

/-- A job that is skipped is not over and no executor holds it, and stale recovery finds no job that
an executor holds. -/
def Respects (s : Queue T) : Action T → Prop
  | .skip _ id => (∀ j ∈ s.db.jobs.rows, j.id = id → j.status ≠ .succeeded ∧
    j.status ≠ .cancelled) ∧
      ∀ w, id ∉ (s.phase w).held
  | .resetStale _ staleBefore =>
    ∀ j ∈ s.db.jobs.rows, j.stale staleBefore = true → ∀ w, j.id ∉ (s.phase w).held
  | _ => True

instance Respects.decidable [Fintype T] (s : Queue T) : ∀ a, Decidable (Respects s a)
  | .skip _ id => inferInstanceAs (Decidable ((∀ j ∈ s.db.jobs.rows, j.id = id →
      j.status ≠ .succeeded ∧ j.status ≠ .cancelled) ∧ ∀ w, id ∉ (s.phase w).held))
  | .resetStale _ staleBefore => inferInstanceAs (Decidable (∀ j ∈ s.db.jobs.rows,
      j.stale staleBefore = true → ∀ w, j.id ∉ (s.phase w).held))
  | .find _ _ _ | .update _ _ | .reload _ _ | .decide _ _ | .conclude _ _ _ | .crash _ | .runNow _ _
  | .snooze _ _ _ | .cancelPending _ _ _ | .markMissing _ _ _ | .schedule _ _ _ _ _ _ _
  | .writeTargets _ => inferInstanceAs (Decidable True)

/-- A job that has succeeded, is skipped or cancelled stays so, and one that has failed stays so, is
skipped, or is run again. -/
def Lawful (s : Queue T) (a : Action T) : Prop :=
  ∀ j ∈ s.db.jobs.rows, ∃ j' ∈ (step hash s a).db.jobs.rows, j'.id = j.id ∧
    (j.status = .succeeded ∨ j.status = .skipped ∨ j.status = .cancelled → j'.status = j.status) ∧
    (j.status = .failed → j'.status = .failed ∨ j'.status = .skipped ∨
      j'.status = .pending ∧ ∃ now, a = .runNow now j.id)

/-- What an executor holds is running, and nobody else holds it. -/
structure Held (s : Queue T) : Prop where
  running : ∀ w, ∀ id ∈ (s.phase w).held, ∃ j ∈ s.db.jobs.rows, j.id = id ∧ j.status = .running
  exclusive : Exclusive fun w => (s.phase w).held

omit [DecidableEq T] in
theorem Held.of_mem {s : Queue T} (h : Held s) {w : T} {j : Job} (hj : j ∈ s.db.jobs.rows)
    (hHeld : j.id ∈ (s.phase w).held) : j.status = .running := by
  obtain ⟨i, hi, hId, hRunning⟩ := h.running w j.id hHeld
  rwa [← Indexed.eq_of_key hi hj hId]

theorem Held.lawful {s : Queue T} (h : Held s) {a : Action T} (hRespects : Respects s a) :
    Lawful hash s a := by
  intro j hj
  obtain ⟨j', hj', hId, hMove⟩ := step_move hash s a hj
  refine ⟨j', hj', hId, ?_⟩
  generalize j'.status = status at hMove
  cases hMove with
  | stay => exact ⟨fun _ => rfl, Or.inl⟩
  | claim hPending _ => simp [hPending]
  | conclude w o now job outcome _ hAction hPhase hJob =>
    have hRunning : j.status = .running := by
      apply h.of_mem (w := w) hj
      rw [hPhase, ← hJob]
      exact mem_singleton_self _
    simp [hRunning]
  | cancel hPending => simp [hPending]
  | recover now staleBefore hAction hStale =>
    simp only [Job.stale, and_eq_true, decide_eq_true_eq] at hStale
    simp [hStale.1.1]
  | runNow now hAction hStatus =>
    constructor
    · rintro (hEnded | hEnded | hEnded) <;> simp [hEnded] at hStatus
    · exact fun _ => Or.inr (Or.inr ⟨rfl, now, hAction⟩)
  | skip now hAction =>
    subst hAction
    obtain ⟨hSucceeded, hCancelled⟩ := hRespects.1 j hj rfl
    constructor
    · rintro (hEnded | hEnded | hEnded)
      · exact absurd hEnded hSucceeded
      · exact hEnded.symm
      · exact absurd hEnded hCancelled
    · exact fun _ => Or.inr (Or.inl rfl)

/-- What an executor holds after a step it held before, and the step was not the write of the
outcome, or it has just claimed it. -/
theorem step_held {s : Queue T} {a : Action T} {w : T} {id : Int}
    (h : id ∈ ((step hash s a).phase w).held) :
    (id ∈ (s.phase w).held ∧ ∀ o now job outcome, a = .conclude w o now →
        s.phase w ≠ .concluding job outcome) ∨
      (a = .update w .ok ∧ s.db.claimable id = true ∧ ∃ now, s.phase w = .found id now) := by
  -- a step of one executor is one of another, or sets the phase of this one
  have hGoto : ∀ (v : T) (p : Phase), id ∈ (update s.phase v p w).held →
      (v ≠ w ∧ id ∈ (s.phase w).held) ∨ (v = w ∧ id ∈ p.held) := by
    intro v p hMem
    by_cases hv : v = w
    · subst hv
      rw [Function.update_self] at hMem
      exact Or.inr ⟨rfl, hMem⟩
    · rw [Function.update_of_ne (Ne.symm hv)] at hMem
      exact Or.inl ⟨hv, hMem⟩
  cases a with
  | find v o now =>
    unfold step at h
    dsimp only at h
    split at h
    · rcases hGoto _ _ h with ⟨-, hMem⟩ | ⟨-, hMem⟩
      · exact Or.inl ⟨hMem, by simp⟩
      · cases hMem
    · exact Or.inl ⟨h, by simp⟩
  | update v o =>
    unfold step at h
    dsimp only at h
    split at h
    · rename_i id' now hPhase
      rcases hGoto _ _ h with ⟨-, hMem⟩ | ⟨rfl, hMem⟩
      · exact Or.inl ⟨hMem, by simp⟩
      · split at hMem
        · rename_i hClaimed
          obtain rfl := mem_singleton.mp hMem
          exact Or.inr ⟨by rw [hClaimed.1], hClaimed.2, now, hPhase⟩
        · cases hMem
    · exact Or.inl ⟨h, by simp⟩
  | reload v o =>
    unfold step at h
    dsimp only at h
    split at h
    · rename_i id' hPhase
      split at h
      · rename_i job hFind
        rcases hGoto _ _ h with ⟨-, hMem⟩ | ⟨rfl, hMem⟩
        · exact Or.inl ⟨hMem, by simp⟩
        · obtain rfl := mem_singleton.mp hMem
          refine Or.inl ⟨?_, by simp⟩
          rw [hPhase, Table.key_of_find? hFind]
          exact mem_singleton_self _
      · rcases hGoto _ _ h with ⟨-, hMem⟩ | ⟨-, hMem⟩
        · exact Or.inl ⟨hMem, by simp⟩
        · cases hMem
    · exact Or.inl ⟨h, by simp⟩
  | decide v e =>
    unfold step at h
    dsimp only at h
    split at h
    · rename_i job hPhase
      rcases hGoto _ _ h with ⟨-, hMem⟩ | ⟨rfl, hMem⟩
      · exact Or.inl ⟨hMem, by simp⟩
      · refine Or.inl ⟨?_, by simp⟩
        rw [hPhase]
        exact hMem
    · exact Or.inl ⟨h, by simp⟩
  | conclude v o now =>
    unfold step at h
    dsimp only at h
    split at h
    · rcases hGoto _ _ h with ⟨hne, hMem⟩ | ⟨-, hMem⟩
      · refine Or.inl ⟨hMem, ?_⟩
        rintro _ _ _ _ hAction
        cases hAction
        exact absurd rfl hne
      · cases hMem
    · rename_i hPhase
      refine Or.inl ⟨h, ?_⟩
      rintro _ _ job outcome hAction
      cases hAction
      exact hPhase job outcome
  | crash v =>
    rcases hGoto _ _ h with ⟨-, hMem⟩ | ⟨-, hMem⟩
    · exact Or.inl ⟨hMem, by simp⟩
    · cases hMem
  | resetStale now staleBefore | runNow now id | snooze now id scheduledAt | skip now id
  | cancelPending now targetID exceptDedupeKey | markMissing now sourceType seen
  | schedule o now targetID targetKey resetAt scheduledAt trigger | writeTargets targets =>
    exact Or.inl ⟨h, by simp⟩

theorem claimable_iff {db : Db} {id : Int} :
    db.claimable id = true ↔ ∃ j ∈ db.jobs.rows, j.id = id ∧ j.status = .pending := by
  simp [Db.claimable]

theorem Held.stays {s : Queue T} (h : Held s) {a : Action T} (hRespects : Respects s a) {w : T}
    {j : Job} (hj : j ∈ s.db.jobs.rows) (hHeld : j.id ∈ (s.phase w).held)
    (hKeeps : ∀ o now job outcome, a = .conclude w o now → s.phase w ≠ .concluding job outcome) :
    ∃ j' ∈ (step hash s a).db.jobs.rows, j'.id = j.id ∧ j'.status = .running := by
  have hRunning := h.of_mem hj hHeld
  obtain ⟨j', hj', hId, hMove⟩ := step_move hash s a hj
  refine ⟨j', hj', hId, ?_⟩
  generalize j'.status = status at hMove
  cases hMove with
  | stay => exact hRunning
  | claim hPending _ => rfl
  | conclude v o now job outcome _ hAction hPhase hJob =>
    -- the executor that writes the outcome is the one that holds the job
    have hOther : j.id ∈ (s.phase v).held := by
      rw [hPhase, ← hJob]
      exact mem_singleton_self _
    by_cases hv : v = w
    · subst hv
      exact absurd hPhase (hKeeps o now job outcome hAction)
    · exact absurd hHeld (h.exclusive v w hv j.id hOther)
  | cancel hPending =>
    rw [hRunning] at hPending
    cases hPending
  | recover now staleBefore hAction hStale =>
    subst hAction
    exact absurd hHeld (hRespects j hj hStale w)
  | runNow now hAction hStatus =>
    rw [hRunning] at hStatus
    rcases hStatus with hPending | hFailed
    · cases hPending
    · cases hFailed
  | skip now hAction =>
    subst hAction
    exact absurd hHeld (hRespects.2 w)

theorem Held.step {s : Queue T} (h : Held s) {a : Action T} (hRespects : Respects s a) :
    Held (step hash s a) := by
  -- an executor that has just claimed a job has found it pending
  have hFresh : ∀ w v id, a = .update w .ok → s.db.claimable id = true → id ∉ (s.phase v).held := by
    intro w v id _ hClaimable hHeld
    obtain ⟨j, hj, rfl, hPending⟩ := claimable_iff.mp hClaimable
    rw [h.of_mem hj hHeld] at hPending
    cases hPending
  constructor
  · intro w id hMem
    rcases step_held hash hMem with ⟨hHeld, hKeeps⟩ | ⟨rfl, hClaimable, now, hPhase⟩
    · obtain ⟨j, hj, rfl, -⟩ := h.running w id hHeld
      exact h.stays hash hRespects hj hHeld hKeeps
    · obtain ⟨j, hj, rfl, hPending⟩ := claimable_iff.mp hClaimable
      obtain ⟨j', hj', hId, hStatus⟩ := exists_updateJobs s.db
        (fun i => i.id = j.id && i.status = .pending) (.claim now) hj
      refine ⟨j', ?_, hId, ?_⟩
      · simp only [Activation.step, hPhase, Write.after_ok]
        exact hj'
      · rw [hStatus, hPending]
        simp [JobEdit.claim]
  · intro t u htu id ht hu
    rcases step_held hash ht with ⟨hHeld, -⟩ | ⟨hClaims, hClaimable, -⟩
    · rcases step_held hash hu with ⟨hHeld', -⟩ | ⟨hClaims', hClaimable', -⟩
      · exact h.exclusive t u htu id hHeld hHeld'
      · exact hFresh u t id hClaims' hClaimable' hHeld
    · rcases step_held hash hu with ⟨hHeld', -⟩ | ⟨hClaims', -, -⟩
      · exact hFresh t u id hClaims hClaimable hHeld'
      · rw [hClaims] at hClaims'
        cases hClaims'
        exact htu rfl

omit [DecidableEq T] in
theorem held_start (db : Db) : Held (start db : Queue T) := by
  constructor
  · intro w id hMem
    cases hMem
  · exact Exclusive.of_nil fun _ => rfl

/-- In every interleaving that respects the jobs that are over or held, a job has one executor at
most, and no step takes a job out of a status in which it is over, but run-now one that has failed. -/
theorem lifecycle_of_respects (db : Db) (l : List (Action T))
    (hl : Guarded (step hash) Respects (start db) l) :
    Exclusive (fun w => ((run (step hash) (start db) l).phase w).held) ∧
      Guarded (step hash) (Lawful hash) (start db) l := by
  have hStep : ∀ (s : Queue T) (a : Action T), Held s → Respects s a → Held (step hash s a) :=
    fun _ _ h hRespects => h.step hash hRespects
  constructor
  · exact (Guarded.invariant hStep (held_start db) hl).exclusive
  · exact Guarded.imp_of_invariant hStep (fun _ _ h hRespects => h.lawful hash hRespects)
      (held_start db) hl

end

def oneChannel : Db :=
  (reconcileActivationSnapshots [sampleTurn 1 1200] 1000 .ok .codexChannel Db.empty).db

def claims (w : Bool) (now : Int) : List (Action Bool) :=
  [.find w none now, .update w .ok, .reload w none]

def concludes (w : Bool) : List (Action Bool) :=
  [.decide w (sampleExecution 19300), .conclude w .ok 1303]

/-- A job is executed after another executor has crashed and its claim has become stale. -/
theorem lifecycle_of_respects_crash :
    Exclusive (fun w => ((run (step id) (start oneChannel) (claims true 1300 ++
        [.crash true, .resetStale 2000 1400] ++ claims false 2000 ++ concludes false)).phase
          w).held) ∧
      Guarded (step id) (Lawful id) (start oneChannel) (claims true 1300 ++
        [.crash true, .resetStale 2000 1400] ++ claims false 2000 ++ concludes false) :=
  lifecycle_of_respects id oneChannel _ (by decide)

/-- A job that has succeeded is skipped, a skipped one succeeds, and one that is recovered while it is
executed is executed twice. -/
theorem finished_job_moves :
    (((run (step id) (start oneChannel) (claims true 1300 ++ concludes true)).db.jobs.find? 1).map
        Job.status = some .succeeded ∧
      ((run (step id) (start oneChannel) (claims true 1300 ++ concludes true ++
        [.skip 1400 1])).db.jobs.find? 1).map Job.status = some .skipped) ∧
    (((run (step id) (start oneChannel) (claims true 1300 ++ [.skip 1301 1])).db.jobs.find? 1).map
        Job.status = some .skipped ∧
      ((run (step id) (start oneChannel) (claims true 1300 ++ [.skip 1301 1] ++
        concludes true)).db.jobs.find? 1).map Job.status = some .succeeded) ∧
    ∀ w, ((run (step id) (start oneChannel) (claims true 1300 ++ [.resetStale 2000 1400] ++
      claims false 2000)).phase w).held = [1] := by
  decide

end Qapi.Activation
