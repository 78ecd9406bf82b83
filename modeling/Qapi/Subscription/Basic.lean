import Qapi.Core.Table
import Qapi.Core.Result
import Qapi.Core.Text
import Qapi.Core.Calendar

/-!
# Subscriptions: rows, plans and the reset clock

The rows behind `model/subscription.go`: purchased subscriptions, the records
that make a pre-consume idempotent, and the part of a plan that the billing code
reads. Timestamps of creation and update, prices and product ids are not read by
any function modelled here and are left out.

Quota amounts are unbounded integers, while the columns and the Go counters are 64
bits wide; `Subscription.Int64` says which runs they are the same for.

`Env` holds what a call reads from outside these tables: the database clock, the
server's time zone, the plan that a lookup returns (from the cache or from the
table) and the order in which Go ranges over a map.
-/

namespace Qapi.Subscription

open Qapi.Core

/-- The statements that the calls of this development issue. A statement issued
once per row names the row. -/
inductive DbStep
  | findRecord
  | findSub
  | listSubs
  | loadPlan (planId : Int)
  | saveReset (subId : Int)
  | createRecord
  | findDuplicate
  | saveSub
  | saveRecord
  | countSubs
  | userGroup (userId : Int)
  | updateGroup (userId : Int)
  | createSub
  | updateStatus (userId : Int)
  | findUpgraded (userId : Int)
  | findExpired (userId : Int)
  | deleteSub
  | commit
  | userQuota
  | token
  | tokenQuota
  | taskQuota
deriving DecidableEq, Repr

/-- Which statements of a call fail, and with which error. -/
abbrev Outcome := DbStep → Option Err

def Outcome.good : Outcome := fun _ => none

/-! ## Rows -/

inductive SubStatus
  | active
  | expired
  | cancelled
deriving DecidableEq, Repr

structure UserSubscription where
  id : Int
  userId : Int
  planId : Int
  amountTotal : Int
  amountUsed : Int
  startTime : Int
  endTime : Int
  status : SubStatus
  lastResetTime : Int
  nextResetTime : Int
  upgradeGroup : String
  prevUserGroup : String
  downgradeGroup : String
  allowWalletOverflow : Bool
deriving DecidableEq, Repr

inductive RecordStatus
  | consumed
  | refunded
deriving DecidableEq, Repr

/-- `SubscriptionPreConsumeRecord`; the request id has a unique index. -/
structure PreConsumeRecord where
  requestId : String
  userId : Int
  userSubscriptionId : Int
  preConsumed : Int
  status : RecordStatus
deriving DecidableEq, Repr

/-- The tables that the subscription code reads and writes: the subscriptions,
the pre-consume records, and the group column of the users (the empty text for a
user that does not exist, which is what the query returns). -/
structure Db where
  subs : Table UserSubscription.id
  records : Table PreConsumeRecord.requestId
  groups : Int → String

namespace Db

/-- `tx.Save(&sub)`. -/
def saveSub (db : Db) (sub : UserSubscription) : Db := { db with subs := db.subs.save sub }

/-- `tx.Save(&record)`. -/
def saveRecord (db : Db) (r : PreConsumeRecord) : Db := { db with records := db.records.save r }

/-- `UPDATE users SET group = g WHERE id = userId`. -/
def setGroup (db : Db) (userId : Int) (g : String) : Db :=
  { db with groups := Function.update db.groups userId g }

@[simp] theorem saveSub_subs (db : Db) (s : UserSubscription) :
    (db.saveSub s).subs = db.subs.save s := rfl

@[simp] theorem saveSub_records (db : Db) (s : UserSubscription) :
    (db.saveSub s).records = db.records := rfl

@[simp] theorem saveSub_groups (db : Db) (s : UserSubscription) :
    (db.saveSub s).groups = db.groups := rfl

@[simp] theorem saveRecord_subs (db : Db) (r : PreConsumeRecord) :
    (db.saveRecord r).subs = db.subs := rfl

@[simp] theorem saveRecord_records (db : Db) (r : PreConsumeRecord) :
    (db.saveRecord r).records = db.records.save r := rfl

@[simp] theorem setGroup_subs (db : Db) (u : Int) (g : String) :
    (db.setGroup u g).subs = db.subs := rfl

@[simp] theorem setGroup_records (db : Db) (u : Int) (g : String) :
    (db.setGroup u g).records = db.records := rfl

end Db

/-! ## Plans -/

inductive DurationUnit
  | year
  | month
  | day
  | hour
  | custom
  | invalid (text : String)
deriving DecidableEq, Repr

inductive ResetPeriod
  | never
  | daily
  | weekly
  | monthly
  | custom
deriving DecidableEq, Repr

/-- The part of `SubscriptionPlan` that the subscription code reads. -/
structure Plan where
  id : Int
  title : String
  durationUnit : DurationUnit
  durationValue : Int
  customSeconds : Int
  allowWalletOverflow : Option Bool
  maxPurchasePerUser : Int
  upgradeGroup : String
  downgradeGroup : String
  totalAmount : Int
  quotaResetPeriod : String
  quotaResetCustomSeconds : Int
deriving DecidableEq, Repr

/-- What a call reads from outside the tables. -/
structure Env where
  now : Int
  location : Location
  plans : Int → Option Plan
  rangeOrder : List Int → List Int

def getSubscriptionPlanByIdTx (env : Env) (o : Outcome) (id : Int) : Except Err Plan := do
  failIf (id ≤ 0) (.msg "invalid plan id")
  stmt o (.loadPlan id)
  match env.plans id with
  | some plan => pure plan
  | none => throw recordNotFound

def normalizeResetPeriod (period : String) : ResetPeriod :=
  let p := trimSpace period
  if p = "daily" then .daily
  else if p = "weekly" then .weekly
  else if p = "monthly" then .monthly
  else if p = "custom" then .custom
  else .never

def calcPlanEndTime (loc : Location) (start : Int) (plan : Plan) : Except Err Int :=
  if plan.durationValue ≤ 0 ∧ plan.durationUnit ≠ .custom then
    .error (.msg "duration_value must be > 0")
  else match plan.durationUnit with
    | .year => .ok (addDate64 loc start plan.durationValue 0 0)
    | .month => .ok (addDate64 loc start 0 plan.durationValue 0)
    | .day => .ok (addDuration start plan.durationValue (24 * 3600 * 10 ^ 9))
    | .hour => .ok (addDuration start plan.durationValue (3600 * 10 ^ 9))
    | .custom =>
      if plan.customSeconds ≤ 0 then .error (.msg "custom_seconds must be > 0")
      else .ok (addDuration start plan.customSeconds (10 ^ 9))
    | .invalid text => .error (.msg ("invalid duration_unit: " ++ text))

/-- The start of the next period after `base`, before the end of the
subscription is looked at; `none` when the plan has no further period. -/
def nextPeriodStart (loc : Location) (base : Int) (plan : Plan) : Option Int :=
  let today := civilDate loc base
  match normalizeResetPeriod plan.quotaResetPeriod with
  | .never => none
  | .daily => some (addDate loc (date loc today.year today.month today.day 0) 0 0 1)
  | .weekly =>
    -- Monday is 1 and Sunday is 7
    let w := if weekday loc base = 0 then 7 else weekday loc base
    some (addDate loc (date loc today.year today.month today.day 0) 0 0 (8 - w))
  | .monthly => some (addDate loc (date loc today.year today.month 1 0) 0 1 0)
  | .custom =>
    if plan.quotaResetCustomSeconds ≤ 0 then none
    else some (addDuration base plan.quotaResetCustomSeconds (10 ^ 9))

/-- `calcNextResetTime`; 0 stands for no further reset. -/
def calcNextResetTime (loc : Location) (base : Int) (plan : Plan) (endUnix : Int) : Int :=
  match nextPeriodStart loc base plan with
  | none => 0
  | some next => if endUnix > 0 ∧ next > endUnix then 0 else next

/-! ## Resetting a row -/

/-- Where the catch-up loop of a lazy reset stops. -/
structure CatchUp where
  base : Int
  next : Int
  advanced : Bool
deriving DecidableEq, Repr

/-- `for next > 0 && next <= now { advanced = true; base = next; next = f(base) }`. -/
def catchUpLoop (f : Int → Int) (now : Int) : Nat → CatchUp → Option CatchUp
  | 0, c => if c.next > 0 ∧ c.next ≤ now then none else some c
  | fuel + 1, c =>
    if c.next > 0 ∧ c.next ≤ now then catchUpLoop f now fuel ⟨c.next, f c.next, true⟩
    else some c

/-- The catch-up loop from `base`. Its state is determined by `next`, which lies
between 1 and `now` whenever the body runs; a loop that runs more than `now`
times has repeated a state, so `none` means that it never ends. -/
def catchUp (f : Int → Int) (now base : Int) : Option CatchUp :=
  catchUpLoop f now now.toNat ⟨base, f base, false⟩

/-- What a lazy reset does to a row: nothing, note the first reset time, or reset. -/
inductive DueReset
  | keep
  | schedule (last next : Int)
  | reset (last next : Int)
deriving DecidableEq, Repr

namespace DueReset

def row (sub : UserSubscription) : DueReset → UserSubscription
  | keep => sub
  | schedule last next => { sub with nextResetTime := next, lastResetTime := last }
  | reset last next =>
    { sub with amountUsed := 0, lastResetTime := last, nextResetTime := next }

def isReset : DueReset → Bool
  | reset _ _ => true
  | _ => false

variable (sub : UserSubscription) (d : DueReset)

@[simp] theorem row_id : (d.row sub).id = sub.id := by cases d <;> rfl

@[simp] theorem row_userId : (d.row sub).userId = sub.userId := by cases d <;> rfl

@[simp] theorem row_amountTotal : (d.row sub).amountTotal = sub.amountTotal := by cases d <;> rfl

theorem row_amountUsed :
    (d.row sub).amountUsed = if d.isReset then 0 else sub.amountUsed := by cases d <;> rfl

end DueReset

/-- What `maybeResetUserSubscriptionWithPlanTx` decides for a row. -/
def dueReset (env : Env) (plan : Plan) (sub : UserSubscription) : Except Err DueReset :=
  if sub.nextResetTime > 0 ∧ sub.nextResetTime > env.now then .ok .keep
  else if normalizeResetPeriod plan.quotaResetPeriod = .never then .ok .keep
  else
    let base := if sub.lastResetTime ≤ 0 then sub.startTime else sub.lastResetTime
    match catchUp (fun t => calcNextResetTime env.location t plan sub.endTime) env.now base with
    | none => .error .hang
    | some c =>
      if c.advanced then .ok (.reset c.base c.next)
      else if sub.nextResetTime = 0 ∧ c.next > 0 then .ok (.schedule c.base c.next)
      else .ok .keep

/-- `maybeResetUserSubscriptionWithPlanTx`: the row as the caller goes on with it. -/
def maybeResetUserSubscriptionWithPlanTx (env : Env) (o : Outcome) (plan : Plan)
    (sub : UserSubscription) (db : Db) : Except Err (UserSubscription × Db) := do
  match ← dueReset env plan sub with
  | .keep => pure (sub, db)
  | d =>
    stmt o (.saveReset sub.id)
    pure (d.row sub, db.saveSub (d.row sub))

theorem maybeReset_ok {env : Env} {o : Outcome} {plan : Plan} {sub sub' : UserSubscription}
    {db db' : Db} (hSub : db.subs.find? sub.id = some sub)
    (h : maybeResetUserSubscriptionWithPlanTx env o plan sub db = .ok (sub', db')) :
    ∃ d, dueReset env plan sub = .ok d ∧ sub' = d.row sub ∧ db' = db.saveSub (d.row sub) := by
  obtain ⟨d, hd, h⟩ := of_bind h
  refine ⟨d, hd, ?_⟩
  cases d with
  | keep =>
    cases h
    refine ⟨rfl, ?_⟩
    simp only [DueReset.row, Db.saveSub, Table.save_eq_self hSub]
  | schedule last next | reset last next =>
    replace h := of_seq h
    cases h
    exact ⟨rfl, rfl⟩

/-- `resetUserSubscriptionTx`, the row it saves. -/
def resetRow (env : Env) (plan : Plan) (advanceResetTime : Bool) (sub : UserSubscription) :
    UserSubscription :=
  if advanceResetTime then
    let nextReset := calcNextResetTime env.location env.now plan sub.endTime
    { sub with
      amountUsed := 0
      nextResetTime := nextReset
      lastResetTime := if nextReset > 0 then env.now else 0 }
  else { sub with amountUsed := 0 }

@[simp] theorem resetRow_id (env : Env) (plan : Plan) (advance : Bool) (sub : UserSubscription) :
    (resetRow env plan advance sub).id = sub.id := by
  unfold resetRow
  split <;> rfl

@[simp] theorem resetRow_amountUsed (env : Env) (plan : Plan) (advance : Bool)
    (sub : UserSubscription) : (resetRow env plan advance sub).amountUsed = 0 := by
  unfold resetRow
  split <;> rfl

theorem getPlan_ok {env : Env} {o : Outcome} {id : Int} {plan : Plan}
    (h : getSubscriptionPlanByIdTx env o id = .ok plan) : env.plans id = some plan := by
  replace h := of_seq h
  replace h := of_seq h
  split at h
  · rename_i p hp
    cases h
    exact hp
  · cases h

end Qapi.Subscription
