import Mathlib.Logic.Relation
import Qapi.Subscription.Basic

/-!
# Progress of the reset clock

`catchUp` moves a base from one reset time to the next while that time has passed:
`Due` is one turn of it, `CaughtUp` says where it stops, and `catchUp_ne_none` that it
stops if the schedule always moves forward. The calendar does so where the clocks skip no
midnight and never go back to the day before; a number of seconds does so if it is still
positive as a 64-bit count of nanoseconds. The handlers that create and update plans accept
any positive number, so this is a condition on the plan and not a consequence of its being
accepted.
-/

namespace Qapi.Subscription

open Qapi.Core Relation

/-! ## The catch-up loop -/

section

variable {f : Int → Int} {now base : Int}

/-- One turn of the catch-up loop: the next reset time has passed and becomes the base. -/
def Due (f : Int → Int) (now base next : Int) : Prop := next = f base ∧ 0 < next ∧ next ≤ now

/-- Where the catch-up loop from the base stops. -/
structure CaughtUp (f : Int → Int) (now base : Int) (c : CatchUp) : Prop where
  reaches : ReflTransGen (Due f now) base c.base
  next : c.next = f c.base
  current : ¬ (0 < f c.base ∧ f c.base ≤ now)
  advanced : c.advanced = true ↔ 0 < f base ∧ f base ≤ now

variable {c : CatchUp}

theorem catchUpLoop_eq_some {n : Nat} {advanced : Bool}
    (h : catchUpLoop f now n ⟨base, f base, advanced⟩ = some c) :
    ReflTransGen (Due f now) base c.base ∧ c.next = f c.base ∧
      ¬ (0 < f c.base ∧ f c.base ≤ now) ∧
      (c.advanced = true ↔ advanced = true ∨ 0 < f base ∧ f base ≤ now) := by
  induction n generalizing base advanced with
  | zero =>
    unfold catchUpLoop at h
    split at h
    · cases h
    · rename_i hStop
      cases h
      exact ⟨.refl, rfl, hStop, (or_iff_left hStop).symm⟩
  | succ n ih =>
    unfold catchUpLoop at h
    split at h
    · rename_i hTurn
      obtain ⟨hReaches, hNext, hCurrent, hAdvanced⟩ := ih h
      refine ⟨.head ⟨rfl, hTurn⟩ hReaches, hNext, hCurrent, ?_⟩
      simp [hAdvanced, hTurn]
    · rename_i hStop
      cases h
      exact ⟨.refl, rfl, hStop, (or_iff_left hStop).symm⟩

theorem catchUp_eq_some (h : catchUp f now base = some c) : CaughtUp f now base c := by
  obtain ⟨hReaches, hNext, hCurrent, hAdvanced⟩ := catchUpLoop_eq_some h
  exact ⟨hReaches, hNext, hCurrent, by simpa using hAdvanced⟩

theorem CaughtUp.base_eq (h : CaughtUp f now base c) (hc : c.advanced = false) : c.base = base := by
  rcases h.reaches.cases_head with hEq | ⟨next, ⟨rfl, hTurn⟩, -⟩
  · exact hEq.symm
  · rw [h.advanced.mpr hTurn] at hc
    cases hc

theorem CaughtUp.base_pos (h : CaughtUp f now base c) (hc : c.advanced = true) : 0 < c.base := by
  rcases h.reaches.cases_tail with hEq | ⟨t, -, -, hPos, -⟩
  · -- the loop has taken a turn, so it has not stopped at the base
    exact absurd (hEq ▸ h.advanced.mp hc) h.current
  · exact hPos

theorem catchUpLoop_ne_none (hf : ∀ t, 0 < f t → t < f t) {n : Nat}
    (hFuel : 0 < c.next → now < c.next + n) : catchUpLoop f now n c ≠ none := by
  induction n generalizing c with
  | zero =>
    unfold catchUpLoop
    split
    · omega
    · exact Option.some_ne_none c
  | succ n ih =>
    unfold catchUpLoop
    split
    · apply ih
      intro hPos
      have hNext := hf c.next hPos
      have hNow := hFuel (by omega)
      dsimp only
      omega
    · exact Option.some_ne_none c

theorem catchUp_ne_none (hf : ∀ t, 0 < f t → t < f t) : catchUp f now base ≠ none :=
  catchUpLoop_ne_none hf (by dsimp only; omega)

end

/-! ## The next period -/

/-- The seconds of a custom reset period are positive as a 64-bit count of nanoseconds. -/
def ResetFits (plan : Plan) : Prop :=
  normalizeResetPeriod plan.quotaResetPeriod = .custom → 0 < plan.quotaResetCustomSeconds →
    10 ^ 9 ≤ wrap64 (plan.quotaResetCustomSeconds * 10 ^ 9)

instance (plan : Plan) : Decidable (ResetFits plan) :=
  inferInstanceAs (Decidable (_ → _ → _))

/-- The calendar of a location: every midnight is shown, and the local day never goes back. -/
structure Steady (loc : Location) : Prop where
  midnights : Midnights loc
  forward : ∀ t u, t ≤ u → wallClock loc t / 86400 ≤ wallClock loc u / 86400

theorem steady_fixedZone (offset : Int) : Steady (fixedZone offset) := by
  refine ⟨midnights_fixedZone offset, fun t u h => ?_⟩
  simp only [wallClock, fixedZone]
  omega

/-- Where a period starts: at the next midnight, at the midnight of the next Monday, at that of the
first of the next month, or a number of seconds after the base. -/
inductive Boundary (loc : Location) (base : Int) (plan : Plan) (next : Int) : ResetPeriod → Prop
  | daily (h : wallClock loc next = 86400 * (wallClock loc base / 86400 + 1)) :
    Boundary loc base plan next .daily
  | weekly (k : Int) (h : wallClock loc next = 86400 * (wallClock loc base / 86400 + k))
      (hk : 1 ≤ k ∧ k ≤ 7) (hMonday : weekday loc next = 1) : Boundary loc base plan next .weekly
  | monthly (h : wallClock loc next = 86400 *
      daysFromCivil (civilDate loc base).year ((civilDate loc base).month + 1) 1) :
    Boundary loc base plan next .monthly
  | custom (hPos : 0 < plan.quotaResetCustomSeconds)
      (h : next = addDuration base plan.quotaResetCustomSeconds (10 ^ 9)) :
    Boundary loc base plan next .custom

section

variable {loc : Location} {base next : Int} {plan : Plan}

theorem nextPeriodStart_boundary (hLoc : Midnights loc)
    (h : nextPeriodStart loc base plan = some next) :
    Boundary loc base plan next (normalizeResetPeriod plan.quotaResetPeriod) := by
  obtain ⟨hValid, hDays⟩ := civilOfDays_valid (wallClock loc base / 86400)
  have hLater : ∀ k, wallClock loc (addDate loc (date loc (civilDate loc base).year
      (civilDate loc base).month (civilDate loc base).day 0) 0 0 k) =
        86400 * (wallClock loc base / 86400 + k) := by
    intro k
    rw [civilDate, addDate_date hLoc hValid, hLoc, add_zero, add_zero]
    rw [daysFromCivil_eq] at hDays ⊢
    omega
  unfold nextPeriodStart at h
  generalize normalizeResetPeriod plan.quotaResetPeriod = period at h ⊢
  cases period with
  | never => cases h
  | daily =>
    cases h
    exact .daily (hLater 1)
  | weekly =>
    cases h
    refine .weekly _ (hLater _) ?_ ?_
    · unfold weekday
      split <;> omega
    · rw [weekday, hLater, Int.mul_ediv_cancel_left _ (by decide)]
      unfold weekday
      split <;> omega
  | monthly =>
    cases h
    refine .monthly ?_
    rw [civilDate, addDate_date hLoc hValid.first, hLoc, add_zero, add_zero]
  | custom =>
    dsimp only at h
    split at h
    · cases h
    · rename_i hSeconds
      cases h
      exact .custom (Int.not_le.mp hSeconds) rfl

theorem nextPeriodStart_gt (hLoc : Steady loc) (hFits : ResetFits plan)
    (h : nextPeriodStart loc base plan = some next) : base < next := by
  -- an instant of a later day is later
  have hDay : ∀ day, wallClock loc base / 86400 < day → wallClock loc next = 86400 * day →
      base < next := by
    intro day hLater hNext
    by_contra hNot
    have hForward := hLoc.forward next base (Int.not_lt.mp hNot)
    omega
  have hBoundary := nextPeriodStart_boundary hLoc.midnights h
  generalize hPeriod : normalizeResetPeriod plan.quotaResetPeriod = period at hBoundary
  cases hBoundary with
  | daily hNext => exact hDay _ (by omega) hNext
  | weekly k hNext hk => exact hDay _ (by omega) hNext
  | monthly hNext =>
    obtain ⟨hValid, hDays⟩ := civilOfDays_valid (wallClock loc base / 86400)
    have hMonth := hValid.lt_nextMonth
    rw [hDays] at hMonth
    exact hDay _ hMonth hNext
  | custom hPos hNext =>
    have hSeconds := hFits hPeriod hPos
    unfold addDuration at hNext
    omega

theorem calcNextResetTime_gt (hLoc : Steady loc) (hFits : ResetFits plan) (base endUnix : Int) :
    calcNextResetTime loc base plan endUnix = 0 ∨
      base < calcNextResetTime loc base plan endUnix := by
  unfold calcNextResetTime
  split
  · exact Or.inl rfl
  · rename_i next hNext
    split
    · exact Or.inl rfl
    · exact Or.inr (nextPeriodStart_gt hLoc hFits hNext)

end

/-! ## The plans that the handlers accept -/

def DurationUnit.ofText (text : String) : DurationUnit :=
  if text = "year" then .year
  else if text = "month" then .month
  else if text = "day" then .day
  else if text = "hour" then .hour
  else if text = "custom" then .custom
  else .invalid text

def ResetPeriod.text : ResetPeriod → String
  | never => "never"
  | daily => "daily"
  | weekly => "weekly"
  | monthly => "monthly"
  | custom => "custom"

/-- `AdminUpsertSubscriptionPlanRequest`: what the handlers check, and what a `Plan` has. -/
structure PlanRequest where
  title : String
  priceAmount : Rat
  durationUnit : String
  durationValue : Int
  customSeconds : Int
  allowWalletOverflow : Option Bool
  maxPurchasePerUser : Int
  upgradeGroup : String
  downgradeGroup : String
  totalAmount : Int
  quotaResetPeriod : String
  quotaResetCustomSeconds : Int

/-- What both handlers read besides the request: whether the payment terms have been confirmed
and which groups have a ratio. -/
structure AdminEnv where
  compliant : Bool
  hasGroup : String → Bool

/-- The checks and defaults of both handlers; `overflow` is the wallet setting that is stored. -/
def upsertPlan (env : AdminEnv) (id : Int) (overflow : Option Bool) (req : PlanRequest) :
    Except String Plan := do
  failIf (trimSpace req.title = "") "套餐标题不能为空"
  failIf (req.priceAmount < 0) "价格不能为负数"
  failIf (req.priceAmount > 9999) "价格不能超过9999"
  let unit := DurationUnit.ofText (if req.durationUnit = "" then "month" else req.durationUnit)
  let value := if req.durationValue ≤ 0 ∧ unit ≠ .custom then 1 else req.durationValue
  failIf (req.maxPurchasePerUser < 0) "购买上限不能为负数"
  failIf (req.totalAmount < 0) "总额度不能为负数"
  let upgradeGroup := trimSpace req.upgradeGroup
  failIf (upgradeGroup ≠ "" ∧ env.hasGroup upgradeGroup = false) "升级分组不存在"
  let downgradeGroup := trimSpace req.downgradeGroup
  failIf (downgradeGroup ≠ "" ∧ env.hasGroup downgradeGroup = false) "降级分组不存在"
  let period := normalizeResetPeriod req.quotaResetPeriod
  failIf (period = .custom ∧ req.quotaResetCustomSeconds ≤ 0) "自定义重置周期需大于0秒"
  pure
    { id := id
      title := req.title
      durationUnit := unit
      durationValue := value
      customSeconds := req.customSeconds
      allowWalletOverflow := overflow
      maxPurchasePerUser := req.maxPurchasePerUser
      upgradeGroup := upgradeGroup
      downgradeGroup := downgradeGroup
      totalAmount := req.totalAmount
      quotaResetPeriod := period.text
      quotaResetCustomSeconds := req.quotaResetCustomSeconds }

/-- `AdminCreateSubscriptionPlan`, the plan that it stores; `newId` is the id that the table
assigns. -/
def adminCreateSubscriptionPlan (env : AdminEnv) (newId : Int) (req : PlanRequest) :
    Except String Plan := do
  failIf (env.compliant = false) "payment.compliance_required"
  upsertPlan env newId (some (req.allowWalletOverflow.getD true)) req

/-- `AdminUpdateSubscriptionPlan`, the plan `old` after it. -/
def adminUpdateSubscriptionPlan (env : AdminEnv) (id : Int) (old : Plan) (req : PlanRequest) :
    Except String Plan := do
  failIf (env.compliant = false) "payment.compliance_required"
  failIf (id ≤ 0) "无效的ID"
  upsertPlan env id (req.allowWalletOverflow.orElse fun _ => old.allowWalletOverflow) req

inductive Accepted : Plan → Prop
  | create {env newId req plan} (h : adminCreateSubscriptionPlan env newId req = .ok plan) :
    Accepted plan
  | update {env id old req plan} (h : adminUpdateSubscriptionPlan env id old req = .ok plan) :
    Accepted plan

variable {plan : Plan}

theorem upsertPlan_durationValue {env : AdminEnv} {id : Int} {overflow : Option Bool}
    {req : PlanRequest} (h : upsertPlan env id overflow req = .ok plan) :
    plan.durationUnit = .custom ∨ 0 < plan.durationValue := by
  iterate 8 replace h := of_seq h
  cases h
  generalize DurationUnit.ofText _ = unit
  split
  · exact Or.inr one_pos
  · rename_i hKept
    rw [not_and_or, not_not] at hKept
    exact hKept.symm.imp_right Int.not_le.mp

theorem Accepted.durationValue (h : Accepted plan) :
    plan.durationUnit = .custom ∨ 0 < plan.durationValue := by
  cases h with
  | create h =>
    replace h := of_seq h
    exact upsertPlan_durationValue h
  | update h =>
    replace h := of_seq h
    replace h := of_seq h
    exact upsertPlan_durationValue h

/-! ## Progress -/

theorem dueReset_returns {env : Env} {sub : UserSubscription}
    (h : ∀ base, calcNextResetTime env.location base plan sub.endTime = 0 ∨ base <
      calcNextResetTime env.location base plan sub.endTime) :
    ∃ d, dueReset env plan sub = .ok d := by
  have hf : ∀ t, 0 < calcNextResetTime env.location t plan sub.endTime →
      t < calcNextResetTime env.location t plan sub.endTime := by
    intro t hPos
    rcases h t with hZero | hLt
    · omega
    · exact hLt
  unfold dueReset
  split
  · exact ⟨_, rfl⟩
  split
  · exact ⟨_, rfl⟩
  dsimp only
  split
  · rename_i hNone
    exact absurd hNone (catchUp_ne_none hf)
  · split
    · exact ⟨_, rfl⟩
    · split <;> exact ⟨_, rfl⟩

def resetAt (last next : Int) : UserSubscription :=
  { id := 1
    userId := 1
    planId := 1
    amountTotal := 100
    amountUsed := 0
    startTime := 1700000000
    endTime := 1800000000
    status := .active
    lastResetTime := last
    nextResetTime := next
    upgradeGroup := ""
    prevUserGroup := ""
    downgradeGroup := ""
    allowWalletOverflow := true }

end Qapi.Subscription
