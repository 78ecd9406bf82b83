import Qapi.Subscription.PeriodReset
import Qapi.Subscription.ResetProgress

/-!
# The lazy reset over the life of a row

A row is brought up to date by whoever touches it first: a pre-consume, which then may
charge it, or the reset job, which looks only at rows whose next reset time has passed.
`rowStep` is what the calls do to one row whose plan does not change.

The automatic resets keep the row `OnSchedule`: the next reset time is the one computed
from the last reset, and that lies on the chain of periods that starts with the
subscription. The state after a lazy reset is then determined by the time of the reset
(`CaughtUp.base_unique`), whatever has been reset before.
-/

namespace Qapi.Subscription

open Qapi.Core Relation

/-- What happens to a row: the calls that reset it automatically, the administrator's reset, and
a settlement or refund. -/
inductive RowEvent
  | preConsume (now amount : Int)
  | resetDue (now : Int)
  | adminReset (now : Int) (advanceResetTime : Bool)
  | adjust (delta : Int)
deriving DecidableEq, Repr

def RowEvent.resetTime? : RowEvent → Option Int
  | preConsume now _ => some now
  | resetDue now => some now
  | _ => none

def RowEvent.automatic : RowEvent → Bool
  | adminReset .. => false
  | _ => true

/-- The row after `maybeResetUserSubscriptionWithPlanTx`; a reset that never returns changes
nothing. -/
def lazyReset (env : Env) (plan : Plan) (now : Int) (s : UserSubscription) : UserSubscription :=
  match dueReset { env with now := now } plan s with
  | .ok d => d.row s
  | .error _ => s

/-- The row after the event: a pre-consume resets the row and charges it if it covers the amount,
the reset job picks the rows that are due. -/
def rowStep (env : Env) (plan : Plan) (s : UserSubscription) : RowEvent → UserSubscription
  | .preConsume now amount =>
    let s' := lazyReset env plan now s
    if covers s' amount then charged s' amount else s'
  | .resetDue now =>
    if s.nextResetTime > 0 ∧ s.nextResetTime ≤ now then lazyReset env plan now s else s
  | .adminReset now advance => resetRow { env with now := now } plan advance s
  | .adjust delta => adjusted s delta

def resetBase (s : UserSubscription) : Int :=
  if s.lastResetTime ≤ 0 then s.startTime else s.lastResetTime

/-- The reset time after `t`, before the end of the row; 0 if there is none. -/
def nextReset (env : Env) (plan : Plan) (s : UserSubscription) (t : Int) : Int :=
  calcNextResetTime env.location t plan s.endTime

/-- The period from `a` ends at `b`: at the midnight, the Monday, the first of the month or the
second that `nextPeriodStart_boundary` names. -/
def Period (loc : Location) (plan : Plan) (a b : Int) : Prop := nextPeriodStart loc a plan = some b

instance (loc : Location) (plan : Plan) (a b : Int) : Decidable (Period loc plan a b) :=
  inferInstanceAs (Decidable (_ = _))

section

variable {env : Env} {plan : Plan} {s s' : UserSubscription} {now t : Int} {e : RowEvent}

theorem nextReset_eq_iff (h : 0 < t) {base : Int} : nextReset env plan s base = t ↔
    Period env.location plan base t ∧ (0 < s.endTime → t ≤ s.endTime) := by
  unfold nextReset calcNextResetTime Period
  cases nextPeriodStart env.location base plan with
  | none =>
    simp only [reduceCtorEq, false_and, iff_false]
    omega
  | some next =>
    simp only [Option.some.injEq]
    split
    · constructor
      · omega
      · rintro ⟨rfl, hEnd⟩
        omega
    · constructor
      · rintro rfl
        exact ⟨rfl, by omega⟩
      · exact fun h => h.1

/-- The next reset time is the one after the last reset; both may be missing. -/
def Consistent (env : Env) (plan : Plan) (s : UserSubscription) : Prop :=
  0 < s.nextResetTime ∨ 0 < nextReset env plan s (resetBase s) →
    s.nextResetTime = nextReset env plan s (resetBase s)

/-- A consistent row is reset if its next reset time has passed, and is left alone otherwise. -/
theorem dueReset_cases (h : Consistent env plan s) {d : DueReset}
    (hd : dueReset { env with now := now } plan s = .ok d) :
    (d = .keep ∧ ¬ (0 < s.nextResetTime ∧ s.nextResetTime ≤ now)) ∨
    (0 < s.nextResetTime ∧ s.nextResetTime ≤ now) ∧ ∃ c : CatchUp,
      CaughtUp (nextReset env plan s) now (resetBase s) c ∧ d = .reset c.base c.next := by
  unfold dueReset at hd
  dsimp only at hd
  split at hd
  · cases hd
    exact Or.inl ⟨rfl, by omega⟩
  split at hd
  · rename_i hNever
    have hNone : nextReset env plan s (resetBase s) = 0 := by
      simp only [nextReset, calcNextResetTime, nextPeriodStart, hNever]
    cases hd
    refine Or.inl ⟨rfl, fun hDue => ?_⟩
    have := h (Or.inl hDue.1)
    omega
  split at hd
  · cases hd
  rename_i c hCatch
  have hc : CaughtUp (nextReset env plan s) now (resetBase s) c := catchUp_eq_some hCatch
  split at hd
  · rename_i hAdvanced
    have hDue := hc.advanced.mp hAdvanced
    cases hd
    rw [h (Or.inr hDue.1)]
    exact Or.inr ⟨hDue, c, hc, rfl⟩
  rename_i hStill
  have hBase := hc.base_eq (Bool.eq_false_iff.mpr hStill)
  have hNot : ¬ (0 < s.nextResetTime ∧ s.nextResetTime ≤ now) := by
    intro hDue
    have hEq := h (Or.inl hDue.1)
    exact hStill (hc.advanced.mpr (hEq ▸ hDue))
  split at hd
  · -- the row would have a next reset time
    rename_i hMissing
    rw [hc.next, hBase] at hMissing
    have := h (Or.inr hMissing.2)
    omega
  · cases hd
    exact Or.inl ⟨rfl, hNot⟩

/-! ## The schedule of a row -/

def schedule (s : UserSubscription) : Int × Int × Int × Int :=
  (s.startTime, s.endTime, s.lastResetTime, s.nextResetTime)

theorem dueReset_congr (h : schedule s = schedule s') :
    dueReset { env with now := now } plan s = dueReset { env with now := now } plan s' := by
  simp only [schedule, Prod.mk.injEq] at h
  obtain ⟨hStart, hEnd, hLast, hNext⟩ := h
  simp only [dueReset, hStart, hEnd, hLast, hNext]

theorem schedule_lazyReset_congr (h : schedule s = schedule s') :
    schedule (lazyReset env plan now s) = schedule (lazyReset env plan now s') := by
  unfold lazyReset
  rw [dueReset_congr h]
  simp only [schedule, Prod.mk.injEq] at h
  split
  · rename_i d _
    cases d <;> simp [DueReset.row, schedule, h]
  · simp only [schedule, h]

/-- The row is where automatic resets leave it: its last reset lies on the chain of periods from
its start, and its next reset is the period after that. -/
structure OnSchedule (env : Env) (plan : Plan) (s : UserSubscription) : Prop where
  start : 0 < s.startTime
  base : ReflTransGen (Period env.location plan) s.startTime (resetBase s)
  next : s.nextResetTime = nextReset env plan s (resetBase s)

theorem OnSchedule.congr (hs : OnSchedule env plan s) (h : schedule s = schedule s') :
    OnSchedule env plan s' := by
  obtain ⟨hStart, hBase, hNext⟩ := hs
  simp only [schedule, Prod.mk.injEq] at h
  obtain ⟨h₁, h₂, h₃, h₄⟩ := h
  simp only [resetBase, nextReset, h₁, h₂, h₃, h₄] at hStart hBase hNext
  exact ⟨hStart, hBase, hNext⟩

theorem OnSchedule.consistent (hs : OnSchedule env plan s) : Consistent env plan s :=
  fun _ => hs.next

theorem resetBase_new (newId userId endUnix : Int) (prev : String) :
    resetBase (newSubscription env newId userId endUnix plan prev) = env.now := by
  simp only [resetBase, newSubscription]
  split
  · exact ite_self env.now
  · exact if_pos le_rfl

theorem nextResetTime_new (newId userId endUnix : Int) (prev : String) :
    (newSubscription env newId userId endUnix plan prev).nextResetTime =
      nextReset env plan (newSubscription env newId userId endUnix plan prev)
        (resetBase (newSubscription env newId userId endUnix plan prev)) := by
  rw [resetBase_new]
  simp only [nextReset, newSubscription]

theorem onSchedule_new (hNow : 0 < env.now) (newId userId endUnix : Int) (prev : String) :
    OnSchedule env plan (newSubscription env newId userId endUnix plan prev) where
  start := hNow
  base := by rw [resetBase_new]; exact .refl
  next := nextResetTime_new newId userId endUnix prev

/-- The chain of the loop is part of the chain of periods. -/
theorem periods_of_due {base : Int} (h : ReflTransGen (Due (nextReset env plan s) now) base t) :
    ReflTransGen (Period env.location plan) base t :=
  h.lift id fun _ _ hDue => ((nextReset_eq_iff hDue.2.1).mp hDue.1.symm).1

/-- Where the loop stops is determined by the base and the time. -/
theorem CaughtUp.base_unique {f : Int → Int} {base : Int} {c c' : CatchUp}
    (h : CaughtUp f now base c) (hReaches : ReflTransGen (Due f now) base c'.base)
    (hCurrent : ¬ (0 < f c'.base ∧ f c'.base ≤ now)) : c'.base = c.base := by
  have hUnique : Relator.RightUnique (Due f now) := fun _ _ _ h₁ h₂ => h₁.1.trans h₂.1.symm
  rcases ReflTransGen.total_of_right_unique hUnique h.reaches hReaches with hPath | hPath
  · rcases hPath.cases_head with hEq | ⟨_, ⟨rfl, hTurn⟩, -⟩
    · exact hEq.symm
    · exact absurd hTurn h.current
  · rcases hPath.cases_head with hEq | ⟨_, ⟨rfl, hTurn⟩, -⟩
    · exact hEq
    · exact absurd hTurn hCurrent

end

/-! ## Exactness -/

/-- The lazy reset of a row returns at any time, leaves no reset overdue, resets exactly if a
period that has begun since the last reset lies before the end, is idempotent, and ends where a
later reset would have ended anyway. -/
structure ExactReset (env : Env) (plan : Plan) (s : UserSubscription) : Prop where
  returns : ∀ now, ∃ d, dueReset { env with now := now } plan s = .ok d
  next : ∀ now, (lazyReset env plan now s).nextResetTime = 0 ∨
    now < (lazyReset env plan now s).nextResetTime
  used : ∀ now, (lazyReset env plan now s).amountUsed =
    if resetDecided { env with now := now } plan s then 0 else s.amountUsed
  exact : ∀ now, resetDecided { env with now := now } plan s = true ↔
    ∃ b, TransGen (Period env.location plan) s.startTime b ∧ resetBase s < b ∧ b ≤ now ∧
      (0 < s.endTime → b ≤ s.endTime)
  idem : ∀ now, lazyReset env plan now (lazyReset env plan now s) = lazyReset env plan now s
  compose : ∀ t₁ t₂, t₁ ≤ t₂ → schedule (lazyReset env plan t₂ (lazyReset env plan t₁ s)) =
    schedule (lazyReset env plan t₂ s)

section

variable {env : Env} {plan : Plan} {s : UserSubscription} {now t : Int} {e : RowEvent}
  {offset : Int} (hLoc : env.location = fixedZone offset) (hFits : ResetFits plan)
  (hs : OnSchedule env plan s)

include hLoc hFits

theorem period_lt {a b : Int} (h : Period env.location plan a b) : a < b := by
  rw [Period, hLoc] at h
  exact nextPeriodStart_gt (steady_fixedZone offset) hFits h

theorem periods_le {a b : Int} (h : ReflTransGen (Period env.location plan) a b) : a ≤ b := by
  induction h with
  | refl => exact le_rfl
  | tail _ hPeriod ih => exact ih.trans (period_lt hLoc hFits hPeriod).le

theorem dueReset_ok (now : Int) : ∃ d, dueReset { env with now := now } plan s = .ok d := by
  apply dueReset_returns
  intro base
  rw [hLoc]
  exact calcNextResetTime_gt (steady_fixedZone offset) hFits base s.endTime

include hs

/-- A row on schedule is left alone while its next reset time is ahead, and moves to where the
loop stops once it has passed. -/
theorem lazyReset_cases (now : Int) :
    (lazyReset env plan now s = s ∧ resetDecided { env with now := now } plan s = false ∧
      ¬ (0 < s.nextResetTime ∧ s.nextResetTime ≤ now)) ∨
    (0 < s.nextResetTime ∧ s.nextResetTime ≤ now) ∧ ∃ c : CatchUp,
      CaughtUp (nextReset env plan s) now (resetBase s) c ∧ 0 < c.base ∧
      resetDecided { env with now := now } plan s = true ∧
      lazyReset env plan now s =
        { s with amountUsed := 0, lastResetTime := c.base, nextResetTime := c.next } := by
  obtain ⟨d, hd⟩ := dueReset_ok (s := s) hLoc hFits now
  rcases dueReset_cases hs.consistent hd with ⟨rfl, hNot⟩ | ⟨hDue, c, hc, rfl⟩
  · exact Or.inl ⟨by simp only [lazyReset, hd, DueReset.row],
      by simp only [resetDecided, hd, DueReset.isReset], hNot⟩
  · have hAdvanced : c.advanced = true := hc.advanced.mpr (hs.next ▸ hDue)
    exact Or.inr ⟨hDue, c, hc, hc.base_pos hAdvanced,
      by simp only [resetDecided, hd, DueReset.isReset], by simp only [lazyReset, hd, DueReset.row]⟩

theorem onSchedule_lazyReset (now : Int) : OnSchedule env plan (lazyReset env plan now s) := by
  rcases lazyReset_cases hLoc hFits hs now with ⟨hSame, -⟩ | ⟨-, c, hc, hPos, -, hRow⟩
  · rwa [hSame]
  · have hBase : resetBase (lazyReset env plan now s) = c.base := by
      rw [hRow]
      exact if_neg (Int.not_le.mpr hPos)
    refine ⟨?_, ?_, ?_⟩
    · rw [hRow]
      exact hs.start
    · rw [hBase, hRow]
      exact hs.base.trans (periods_of_due hc.reaches)
    · rw [hBase, hRow]
      exact hc.next

theorem base_pos : 0 < resetBase s := hs.start.trans_le (periods_le hLoc hFits hs.base)

theorem nextReset_of_not_due (h : ¬ (0 < s.nextResetTime ∧ s.nextResetTime ≤ now)) :
    s.nextResetTime = 0 ∨ now < s.nextResetTime := by
  have hProgress : nextReset env plan s (resetBase s) = 0 ∨
      resetBase s < nextReset env plan s (resetBase s) := by
    rw [nextReset, hLoc]
    exact calcNextResetTime_gt (steady_fixedZone offset) hFits _ _
  have hBase := base_pos hLoc hFits hs
  rw [← hs.next] at hProgress
  omega

theorem lazyReset_next (now : Int) : (lazyReset env plan now s).nextResetTime = 0 ∨
    now < (lazyReset env plan now s).nextResetTime := by
  have hAfter := onSchedule_lazyReset hLoc hFits hs now
  apply nextReset_of_not_due hLoc hFits hAfter
  rcases lazyReset_cases hLoc hFits hs now with ⟨hSame, -, hNot⟩ | ⟨-, c, hc, -, -, hRow⟩
  · rwa [hSame]
  · rw [hRow]
    rw [hc.next]
    exact hc.current

theorem lazyReset_idem (now : Int) :
    lazyReset env plan now (lazyReset env plan now s) = lazyReset env plan now s := by
  have hAfter := onSchedule_lazyReset hLoc hFits hs now
  rcases lazyReset_cases hLoc hFits hAfter now with ⟨hSame, -⟩ | ⟨hDue, -⟩
  · exact hSame
  · have := lazyReset_next hLoc hFits hs now
    omega

/-- The row is reset exactly if a period of its chain has begun after its last reset. -/
theorem resetDecided_iff (now : Int) : resetDecided { env with now := now } plan s = true ↔
    ∃ b, TransGen (Period env.location plan) s.startTime b ∧ resetBase s < b ∧ b ≤ now ∧
      (0 < s.endTime → b ≤ s.endTime) := by
  rcases lazyReset_cases hLoc hFits hs now with ⟨-, hKept, hNot⟩ | ⟨hDue, -, -, -, hReset, -⟩
  · simp only [hKept, Bool.false_eq_true, false_iff]
    rintro ⟨b, hPath, hAfter, hNow, hEnd⟩
    have hUnique : Relator.RightUnique (Period env.location plan) :=
      fun _ _ _ h₁ h₂ => Option.some.inj (h₁.symm.trans h₂)
    rcases ReflTransGen.total_of_right_unique hUnique hs.base hPath.to_reflTransGen with
      hFrom | hTo
    · rcases hFrom.cases_head with hEq | ⟨next, hNext, hRest⟩
      · omega
      · -- the period after the last reset comes first
        have hLe := periods_le hLoc hFits hRest
        have hPos := (base_pos hLoc hFits hs).trans (period_lt hLoc hFits hNext)
        have hEq := (nextReset_eq_iff hPos).mpr ⟨hNext, fun h => hLe.trans (hEnd h)⟩
        rw [hs.next, hEq] at hNot
        omega
    · have := periods_le hLoc hFits hTo
      omega
  · simp only [hReset, true_iff]
    obtain ⟨hPeriod, hEnd⟩ := (nextReset_eq_iff hDue.1).mp hs.next.symm
    exact ⟨s.nextResetTime, .tail' hs.base hPeriod, period_lt hLoc hFits hPeriod, hDue.2, hEnd⟩

theorem lazyReset_compose {t₁ t₂ : Int} (h : t₁ ≤ t₂) :
    schedule (lazyReset env plan t₂ (lazyReset env plan t₁ s)) =
      schedule (lazyReset env plan t₂ s) := by
  rcases lazyReset_cases hLoc hFits hs t₁ with ⟨hSame, -⟩ | ⟨hDue, c, hc, hPos, -, hRow⟩
  · rw [hSame]
  rcases lazyReset_cases hLoc hFits hs t₂ with ⟨-, -, hNot⟩ | ⟨-, c₂, hc₂, -, -, hRow₂⟩
  · omega
  have hAfter := onSchedule_lazyReset hLoc hFits hs t₁
  have hBase : resetBase (lazyReset env plan t₁ s) = c.base := by
    rw [hRow]
    exact if_neg (Int.not_le.mpr hPos)
  have hReaches : ReflTransGen (Due (nextReset env plan s) t₂) (resetBase s) c.base :=
    hc.reaches.lift id fun _ _ hTurn => ⟨hTurn.1, hTurn.2.1, hTurn.2.2.trans h⟩
  have hNext : nextReset env plan (lazyReset env plan t₁ s) = nextReset env plan s := by
    rw [hRow]
    rfl
  rcases lazyReset_cases hLoc hFits hAfter t₂ with ⟨hSame, -, hNot⟩ | ⟨-, c₃, hc₃, -, -, hRow₃⟩
  · -- the second reset has nothing to do: the first one stopped where one reset stops
    rw [hAfter.next, hBase, hNext] at hNot
    have hEq := hc₂.base_unique hReaches hNot
    rw [hSame, hRow, hRow₂]
    simp only [schedule, hc.next, hc₂.next, hEq]
  · rw [hBase, hNext] at hc₃
    have hEq := hc₂.base_unique (hReaches.trans hc₃.reaches) hc₃.current
    rw [hRow₃, hRow₂, hRow]
    simp only [schedule, hc₃.next, hc₂.next, hEq]

theorem exactReset : ExactReset env plan s where
  returns := dueReset_ok hLoc hFits
  next := lazyReset_next hLoc hFits hs
  used now := by
    rcases lazyReset_cases hLoc hFits hs now with ⟨hSame, hKept, -⟩ | ⟨-, c, -, -, hReset, hRow⟩
    · simp [hSame, hKept]
    · simp [hRow, hReset]
  exact := resetDecided_iff hLoc hFits hs
  idem := lazyReset_idem hLoc hFits hs
  compose _ _ := lazyReset_compose hLoc hFits hs

/-- Every automatic event leaves the schedule of a lazy reset at its time: the rows that the job
does not pick are those that such a reset leaves alone. -/
theorem schedule_rowStep (he : e.automatic = true) : schedule (rowStep env plan s e) =
    schedule (e.resetTime?.elim s fun t => lazyReset env plan t s) := by
  cases e with
  | preConsume t amount =>
    simp only [rowStep, RowEvent.resetTime?, Option.elim]
    split <;> rfl
  | resetDue t =>
    simp only [rowStep, RowEvent.resetTime?, Option.elim]
    split
    · rfl
    · rename_i hNot
      rcases lazyReset_cases hLoc hFits hs t with ⟨hSame, -⟩ | ⟨hDue, -⟩
      · rw [hSame]
      · exact absurd hDue hNot
  | adminReset => cases he
  | adjust => rfl

theorem onSchedule_rowStep (he : e.automatic = true) :
    OnSchedule env plan (rowStep env plan s e) := by
  refine OnSchedule.congr ?_ (schedule_rowStep hLoc hFits hs he).symm
  cases e.resetTime? with
  | none => exact hs
  | some t => exact onSchedule_lazyReset hLoc hFits hs t

theorem onSchedule_run {l : List RowEvent} (hl : ∀ e ∈ l, e.automatic = true) :
    OnSchedule env plan (run (rowStep env plan) s l) := by
  induction l generalizing s with
  | nil => exact hs
  | cons e l ih =>
    rw [List.forall_mem_cons] at hl
    exact ih (onSchedule_rowStep hLoc hFits hs hl.1) hl.2

/-- Automatic resets up to some time make no difference to a reset at that time. -/
theorem schedule_run {l : List RowEvent} (hl : ∀ e ∈ l, e.automatic = true)
    (hTimes : ∀ e ∈ l, ∀ t ∈ e.resetTime?, t ≤ now) :
    schedule (lazyReset env plan now (run (rowStep env plan) s l)) =
      schedule (lazyReset env plan now s) := by
  induction l generalizing s with
  | nil => rfl
  | cons e l ih =>
    rw [List.forall_mem_cons] at hl hTimes
    rw [run_cons, ih (onSchedule_rowStep hLoc hFits hs hl.1) hl.2 hTimes.2,
      schedule_lazyReset_congr (schedule_rowStep hLoc hFits hs hl.1)]
    cases hTime : e.resetTime? with
    | none => rfl
    | some t => exact lazyReset_compose hLoc hFits hs (hTimes.1 t hTime)

end

theorem lazy_reset_exact {env : Env} {plan : Plan} {offset : Int}
    (hLoc : env.location = fixedZone offset) (hFits : ResetFits plan) (hNow : 0 < env.now)
    (newId userId endUnix : Int) (prev : String) {l : List RowEvent}
    (hl : ∀ e ∈ l, e.automatic = true) :
    let s := run (rowStep env plan) (newSubscription env newId userId endUnix plan prev) l
    ExactReset env plan s ∧
    (∀ e t, e.automatic = true → e.resetTime? = some t →
      schedule (rowStep env plan s e) = schedule (lazyReset env plan t s)) ∧
    ∀ l' now, (∀ e ∈ l', e.automatic = true) → (∀ e ∈ l', ∀ t ∈ e.resetTime?, t ≤ now) →
      schedule (lazyReset env plan now (run (rowStep env plan) s l')) =
        schedule (lazyReset env plan now s) := by
  intro s
  have hs : OnSchedule env plan s :=
    onSchedule_run hLoc hFits (onSchedule_new hNow newId userId endUnix prev) hl
  refine ⟨exactReset hLoc hFits hs, ?_, fun l' now => schedule_run hLoc hFits hs⟩
  intro e t he ht
  rw [schedule_rowStep hLoc hFits hs he, ht]
  rfl

/-- The row of a month's plan that is charged on the third day, and again by the time the job has
reset it. -/
theorem lazy_reset_exact_month :
    let s := run (rowStep (utcEnv 100000) monthPlan)
      (newSubscription (utcEnv 100000) 1 1 2778400 monthPlan "")
      [.preConsume 180000 40, .resetDue 300000, .preConsume 310000 5]
    s.amountUsed = 5 ∧ ExactReset (utcEnv 100000) monthPlan s :=
  ⟨by decide, (lazy_reset_exact (show (utcEnv 100000).location = fixedZone 0 from rfl)
    (by decide) (by decide) 1 1 2778400 "" (by decide)).1⟩

/-! ## The administrator's resets -/

/-- A row with what its resets are measured by: where its current schedule starts, and when it was
last reset, automatically or by the administrator. -/
structure Watch where
  row : UserSubscription
  anchor : Int
  lastReset : Option Int

/-- Whether the event's automatic reset sets the used amount to zero. -/
def autoResets (env : Env) (plan : Plan) (s : UserSubscription) : RowEvent → Bool
  | .preConsume now _ => resetDecided { env with now := now } plan s
  | .resetDue now => (s.nextResetTime > 0 && s.nextResetTime ≤ now) &&
    resetDecided { env with now := now } plan s
  | _ => false

/-- The row after the event; a reset that advances the reset time starts a new schedule. -/
def watchStep (env : Env) (plan : Plan) (w : Watch) (e : RowEvent) : Watch where
  row := rowStep env plan w.row e
  anchor := match e with
    | .adminReset now true => now
    | _ => w.anchor
  lastReset := match e with
    | .adminReset now _ => some now
    | _ => if autoResets env plan w.row e then e.resetTime? else w.lastReset

def bought (env : Env) (plan : Plan) (newId userId endUnix : Int) (prev : String) : Watch :=
  ⟨newSubscription env newId userId endUnix plan prev, env.now, none⟩

/-- An automatic reset happens only if a period of the current schedule has begun since the last
reset. -/
def Justified (env : Env) (plan : Plan) (w : Watch) (e : RowEvent) : Prop :=
  autoResets env plan w.row e = true → ∀ now ∈ e.resetTime?,
    ∃ b, TransGen (Period env.location plan) w.anchor b ∧ b ≤ now ∧
      (0 < w.row.endTime → b ≤ w.row.endTime) ∧ ∀ t ∈ w.lastReset, t < b

/-- The administrator's reset leaves nothing for the automatic reset: if it advances the reset
time, another reset follows before the end or the row never had one; if it does not, no reset is
overdue. -/
def LeavesNothing (env : Env) (plan : Plan) (w : Watch) : RowEvent → Prop
  | .adminReset now true =>
    (0 < now ∧ now < nextReset env plan w.row now) ∨
      (nextReset env plan w.row now ≤ 0 ∧ nextReset env plan w.row w.row.startTime ≤ 0)
  | .adminReset now false => w.row.nextResetTime ≤ 0 ∨ now < w.row.nextResetTime
  | _ => True

/-- The next reset time of the row is a period of the current schedule after the last reset. -/
structure Tracked (env : Env) (plan : Plan) (w : Watch) : Prop where
  consistent : Consistent env plan w.row
  reaches : 0 < w.row.nextResetTime →
    ReflTransGen (Period env.location plan) w.anchor (resetBase w.row)
  later : 0 < w.row.nextResetTime → ∀ t ∈ w.lastReset, t < w.row.nextResetTime

section

variable {env : Env} {plan : Plan} {s s' : UserSubscription} {w : Watch} {now anchor : Int}
  {last : Option Int} {e : RowEvent}

theorem Tracked.congr (h : Tracked env plan ⟨s, anchor, last⟩) (hs : schedule s = schedule s') :
    Tracked env plan ⟨s', anchor, last⟩ := by
  obtain ⟨h₁, h₂, h₃⟩ := h
  simp only [schedule, Prod.mk.injEq] at hs
  obtain ⟨hStart, hEnd, hLast, hNext⟩ := hs
  simp only [Consistent, nextReset, resetBase, hStart, hEnd, hLast, hNext] at h₁ h₂ h₃
  exact ⟨h₁, h₂, h₃⟩

theorem tracked_bought (newId userId endUnix : Int) (prev : String) :
    Tracked env plan (bought env plan newId userId endUnix prev) where
  consistent _ := nextResetTime_new newId userId endUnix prev
  reaches _ := by
    simp only [bought, resetBase_new]
    exact .refl
  later _ _ ht := by cases ht

/-- An automatic reset keeps the row tracked and is justified by the next reset time. -/
theorem Tracked.lazyReset (h : Tracked env plan w) (now : Int) :
    Tracked env plan ⟨lazyReset env plan now w.row, w.anchor,
      if resetDecided { env with now := now } plan w.row then some now else w.lastReset⟩ ∧
    (resetDecided { env with now := now } plan w.row = true →
      0 < w.row.nextResetTime ∧ w.row.nextResetTime ≤ now) := by
  rcases hd : dueReset { env with now := now } plan w.row with err | d
  · simp only [Subscription.lazyReset, resetDecided, hd]
    exact ⟨h, by simp⟩
  rcases dueReset_cases h.consistent hd with ⟨rfl, -⟩ | ⟨hDue, c, hc, rfl⟩
  · simp only [Subscription.lazyReset, resetDecided, hd, DueReset.row, DueReset.isReset]
    exact ⟨h, by simp⟩
  simp only [Subscription.lazyReset, resetDecided, hd, DueReset.row, DueReset.isReset, if_true]
  refine ⟨?_, fun _ => hDue⟩
  have hAdvanced : c.advanced = true :=
    hc.advanced.mpr (h.consistent (Or.inl hDue.1) ▸ hDue)
  have hBase : ∀ used, resetBase { w.row with
      amountUsed := used, lastResetTime := c.base, nextResetTime := c.next } = c.base :=
    fun _ => if_neg (Int.not_le.mpr (hc.base_pos hAdvanced))
  refine ⟨fun _ => ?_, fun _ => ?_, fun hPos t ht => ?_⟩
  · rw [hBase]
    exact hc.next
  · rw [hBase]
    exact (h.reaches hDue.1).trans (periods_of_due hc.reaches)
  · cases ht
    have := hc.current
    rw [← hc.next] at this
    dsimp only at hPos ⊢
    omega

theorem Tracked.step (h : Tracked env plan w) (he : LeavesNothing env plan w e) :
    Tracked env plan (watchStep env plan w e) := by
  cases e with
  | preConsume now amount =>
    refine Tracked.congr (h.lazyReset now).1 ?_
    simp only [rowStep]
    split <;> rfl
  | resetDue now =>
    simp only [watchStep, rowStep, autoResets]
    split
    · rename_i hDue
      simpa [hDue, RowEvent.resetTime?] using (h.lazyReset now).1
    · rename_i hNot
      have hNot' : (decide (w.row.nextResetTime > 0) && decide (w.row.nextResetTime ≤ now)) = false
        := by simpa using hNot
      simpa [hNot'] using h
  | adjust delta => exact h.congr rfl
  | adminReset now advance =>
    cases advance with
    | false =>
      obtain ⟨hConsistent, hReaches, -⟩ := h
      refine ⟨hConsistent, hReaches, fun hPos t ht => ?_⟩
      cases ht
      exact he.resolve_left (Int.not_le.mpr hPos)
    | true =>
      have hRow : schedule { w.row with
          lastResetTime := if nextReset env plan w.row now > 0 then now else 0
          nextResetTime := nextReset env plan w.row now } =
          schedule (resetRow { env with now := now } plan true w.row) := by
        simp only [schedule, resetRow, if_true, nextReset]
        rfl
      refine Tracked.congr ?_ hRow
      rcases he with ⟨hNow, hNext⟩ | ⟨hNone, hStart⟩
      · -- a new schedule starts at the reset
        rw [if_pos (hNow.trans hNext)]
        have hBase : resetBase { w.row with
            lastResetTime := now
            nextResetTime := nextReset env plan w.row now } = now :=
          if_neg (Int.not_le.mpr hNow)
        refine ⟨fun _ => ?_, fun _ => ?_, fun _ t ht => ?_⟩
        · rw [hBase]
          simp only [nextReset]
        · rw [hBase]
        · cases ht
          exact hNext
      · -- the row has no resets, neither from here nor from its start
        rw [if_neg (Int.not_lt.mpr hNone)]
        have hEnded : ∀ n ≤ 0, ¬ 0 < ({ w.row with
            lastResetTime := 0
            nextResetTime := n } : UserSubscription).nextResetTime := fun _ => Int.not_lt.mpr
        refine ⟨fun hPos => ?_, fun hPos => absurd hPos (hEnded _ hNone),
          fun hPos => absurd hPos (hEnded _ hNone)⟩
        rcases hPos with hPos | hPos
        · exact absurd hPos (hEnded _ hNone)
        · exact absurd hPos (Int.not_lt.mpr hStart)

theorem Tracked.justified (h : Tracked env plan w) : Justified env plan w e := by
  intro hReset now hTime
  have hDue : 0 < w.row.nextResetTime ∧ w.row.nextResetTime ≤ now := by
    cases e with
    | preConsume =>
      cases hTime
      exact (h.lazyReset now).2 hReset
    | resetDue =>
      cases hTime
      simp only [autoResets, Bool.and_eq_true] at hReset
      exact (h.lazyReset now).2 hReset.2
    | adminReset => cases hTime
    | adjust => cases hTime
  obtain ⟨hPeriod, hEnd⟩ := (nextReset_eq_iff hDue.1).mp (h.consistent (Or.inl hDue.1)).symm
  exact ⟨w.row.nextResetTime, .tail' (h.reaches hDue.1) hPeriod, hDue.2, hEnd, h.later hDue.1⟩

end

theorem admin_reset_no_extra {env : Env} {plan : Plan} (newId userId endUnix : Int)
    (prev : String) {l : List RowEvent}
    (hl : Guarded (watchStep env plan) (LeavesNothing env plan)
      (bought env plan newId userId endUnix prev) l) :
    Guarded (watchStep env plan) (Justified env plan)
      (bought env plan newId userId endUnix prev) l :=
  hl.imp_of_invariant (I := Tracked env plan) (fun _ _ h he => h.step he)
    (fun _ _ h _ => h.justified) (tracked_bought newId userId endUnix prev)

/-- The administrator resets the row on the third day and starts its schedule again on the
fourth. -/
theorem month_resets_justified :
    Guarded (watchStep (utcEnv 100000) monthPlan) (Justified (utcEnv 100000) monthPlan)
      (bought (utcEnv 100000) monthPlan 1 1 2778400 "")
      [.preConsume 180000 40, .adminReset 190000 false, .adminReset 270000 true,
        .preConsume 360000 5] := by
  refine admin_reset_no_extra 1 1 2778400 "" ⟨trivial, ?_, ?_, trivial, trivial⟩
  · exact Or.inr (by decide)
  · exact Or.inl (by decide)

/-- Two resets that nothing has crossed. On the last day of the subscription the administrator's
reset leaves no reset time, so that the next charge counts the periods from the start again; on
the third day it leaves the reset that was due at midnight. Both erase the 20 units settled since
the administrator's reset. -/
theorem admin_reset_grants_another :
    let step := watchStep (utcEnv 100000) monthPlan
    let start := bought (utcEnv 100000) monthPlan 1 1 2778400 ""
    let lastDay := [.preConsume 2777000 40, .adminReset 2778000 true, .adjust 20,
      .preConsume 2778100 5]
    let thirdDay := [.adminReset 180000 false, .adjust 20, .preConsume 180100 5]
    (¬ Guarded step (Justified (utcEnv 100000) monthPlan) start lastDay ∧
        (run step start lastDay).row.amountUsed = 5) ∧
      ¬ Guarded step (Justified (utcEnv 100000) monthPlan) start thirdDay ∧
        (run step start thirdDay).row.amountUsed = 5 := by
  have hLe : ∀ {a b : Int}, ReflTransGen (Period (fixedZone 0) monthPlan) a b → a ≤ b :=
    fun h => periods_le (show (utcEnv 100000).location = fixedZone 0 from rfl)
      (by decide) h
  refine ⟨⟨?_, by decide⟩, ?_, by decide⟩
  · rintro ⟨-, -, -, h, -⟩
    obtain ⟨b, hPath, hNow, -, -⟩ := h (by decide) 2778100 rfl
    obtain ⟨next, hNext, hRest⟩ := TransGen.head'_iff.mp hPath
    have hMidnight : Period (fixedZone 0) monthPlan 2778000 2851200 := by decide
    cases hNext.symm.trans hMidnight
    have := hLe hRest
    omega
  · rintro ⟨-, -, h, -⟩
    obtain ⟨b, hPath, hNow, -, hLater⟩ := h (by decide) 180100 rfl
    have hAfter : 180000 < b := hLater 180000 rfl
    obtain ⟨next, hNext, hRest⟩ := TransGen.head'_iff.mp hPath
    have hMidnight : Period (fixedZone 0) monthPlan 100000 172800 := by decide
    cases hNext.symm.trans hMidnight
    rcases hRest.cases_head with hEq | ⟨next', hNext', hRest'⟩
    · omega
    · have hNextMidnight : Period (fixedZone 0) monthPlan 172800 259200 := by decide
      cases hNext'.symm.trans hNextMidnight
      have := hLe hRest'
      omega

end Qapi.Subscription
