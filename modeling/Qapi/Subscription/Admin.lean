import Qapi.Subscription.Consume

/-!
# Creating, resetting, expiring and cancelling subscriptions

The remaining writers of the subscription rows: the purchase, the reset job, the
administrator's resets, the expiry job, and the administrator's invalidation and
deletion, with what the last three do to the group of the user.

The jobs work through a list read beforehand, one transaction for each entry, so
`resetDueOne` and `expireUserTx` are the units that other activities interleave
with.
-/

namespace Qapi.Subscription

open Qapi.Core

/-! ## Groups -/

def getUserGroupByIdTx (o : Outcome) (userId : Int) (db : Db) : Except Err String := do
  failIf (userId ≤ 0) (.msg "invalid userId")
  stmt o (.userGroup userId)
  pure (db.groups userId)

/-- Whether the query for another active subscription with an upgrade group finds a row. -/
def hasUpgraded (o : Outcome) (now userId : Int) (other : UserSubscription → Bool) (db : Db) :
    Bool :=
  (o (.findUpgraded userId)).isNone &&
    db.subs.rows.any fun s => chargeable now userId s && other s && s.upgradeGroup ≠ ""

/-- The group a user falls back to when the row is cancelled or deleted: the
explicit one, or the one held before, if the row raised the user to the current one. -/
def downgradeTarget (sub : UserSubscription) (currentGroup : String) : Option String :=
  let downgradeGroup := trimSpace sub.downgradeGroup
  let target :=
    if downgradeGroup ≠ "" then downgradeGroup
    else if currentGroup ≠ trimSpace sub.upgradeGroup then ""
    else trimSpace sub.prevUserGroup
  if target = "" ∨ target = currentGroup then none else some target

/-- `downgradeUserGroupForSubscriptionTx`: the group the user falls back to, empty for none. -/
def downgradeUserGroupForSubscriptionTx (o : Outcome) (now : Int) (sub : UserSubscription)
    (db : Db) : Except Err (String × Db) :=
  if trimSpace sub.downgradeGroup = "" ∧ trimSpace sub.upgradeGroup = "" then .ok ("", db)
  else do
    let currentGroup ← getUserGroupByIdTx o sub.userId db
    if hasUpgraded o now sub.userId (fun s => s.id ≠ sub.id) db then pure ("", db)
    else match downgradeTarget sub currentGroup with
      | none => pure ("", db)
      | some target =>
        stmt o (.updateGroup sub.userId)
        pure (target, db.setGroup sub.userId target)

/-! ## Purchase -/

def newSubscription (env : Env) (newId userId endUnix : Int) (plan : Plan) (prevGroup : String) :
    UserSubscription :=
  let nextReset := calcNextResetTime env.location env.now plan endUnix
  { id := newId
    userId := userId
    planId := plan.id
    amountTotal := plan.totalAmount
    amountUsed := 0
    startTime := env.now
    endTime := endUnix
    status := .active
    lastResetTime := if nextReset > 0 then env.now else 0
    nextResetTime := nextReset
    upgradeGroup := trimSpace plan.upgradeGroup
    prevUserGroup := prevGroup
    downgradeGroup := trimSpace plan.downgradeGroup
    allowWalletOverflow := plan.allowWalletOverflow.getD true }

/-- The group change of a purchase: the group held before, and the tables after. -/
def upgradeGroupTx (o : Outcome) (userId : Int) (plan : Plan) (db : Db) :
    Except Err (String × Db) :=
  let upgradeGroup := trimSpace plan.upgradeGroup
  if upgradeGroup = "" then .ok ("", db)
  else do
    let currentGroup ← getUserGroupByIdTx o userId db
    if currentGroup = upgradeGroup then pure ("", db)
    else
      stmt o (.updateGroup userId)
      pure (currentGroup, db.setGroup userId upgradeGroup)

def checkPurchaseLimit (o : Outcome) (userId : Int) (plan : Plan) (db : Db) : Except Err Unit :=
  if plan.maxPurchasePerUser > 0 then do
    stmt o .countSubs
    let count := (db.subs.rows.filter fun s => s.userId = userId && s.planId = plan.id).length
    failIf (count ≥ plan.maxPurchasePerUser) (.msg "已达到该套餐购买上限")
  else .ok ()

/-- `CreateUserSubscriptionFromPlanTx`; `newId` is the id that the table assigns. -/
def createUserSubscriptionFromPlanTx (env : Env) (o : Outcome) (newId userId : Int) (plan : Plan)
    (db : Db) : Except Err (UserSubscription × Db) := do
  failIf (plan.id = 0) (.msg "invalid plan")
  failIf (userId ≤ 0) (.msg "invalid user id")
  checkPurchaseLimit o userId plan db
  let endUnix ← calcPlanEndTime env.location env.now plan
  let (prevGroup, db) ← upgradeGroupTx o userId plan db
  let sub := newSubscription env newId userId endUnix plan prevGroup
  stmt o .createSub
  match db.subs.create sub with
  | some subs => pure (sub, { db with subs := subs })
  | none => throw (.msg "UNIQUE constraint failed")

/-- What a purchase that goes through has found and done. -/
structure Purchased (env : Env) (o : Outcome) (newId userId : Int) (plan : Plan) (db : Db)
    (sub : UserSubscription) (db' : Db) : Prop where
  user : 0 < userId
  limit : checkPurchaseLimit o userId plan db = .ok ()
  row : ∃ endUnix prevGroup, calcPlanEndTime env.location env.now plan = .ok endUnix ∧
    upgradeGroupTx o userId plan db = .ok (prevGroup, { db' with subs := db.subs }) ∧
    sub = newSubscription env newId userId endUnix plan prevGroup
  created : db.subs.create sub = some db'.subs

theorem upgradeGroupTx_subs {o : Outcome} {userId : Int} {plan : Plan} {db db' : Db} {g : String}
    (h : upgradeGroupTx o userId plan db = .ok (g, db')) : db'.subs = db.subs := by
  unfold upgradeGroupTx at h
  dsimp only at h
  split at h
  · cases h
    rfl
  · obtain ⟨current, -, h⟩ := of_bind h
    split at h
    · cases h
      rfl
    · replace h := of_seq h
      cases h
      rfl

theorem createUserSubscriptionFromPlanTx_ok {env : Env} {o : Outcome} {newId userId : Int}
    {plan : Plan} {db db' : Db} {sub : UserSubscription}
    (h : createUserSubscriptionFromPlanTx env o newId userId plan db = .ok (sub, db')) :
    Purchased env o newId userId plan db sub db' := by
  replace h := of_seq h
  obtain ⟨_, hUser, h⟩ := of_bind h
  obtain ⟨_, hLimit, h⟩ := of_bind h
  obtain ⟨endUnix, hEnd, h⟩ := of_bind h
  obtain ⟨⟨prevGroup, db₁⟩, hGroup, h⟩ := of_bind h
  replace h := of_seq h
  have hSubs : db₁.subs = db.subs := upgradeGroupTx_subs hGroup
  rw [failIf_eq_ok, not_le] at hUser
  split at h
  · rename_i subs hCreate
    cases h
    rw [hSubs] at hCreate
    refine ⟨hUser, hLimit, ⟨endUnix, prevGroup, hEnd, ?_, rfl⟩, hCreate⟩
    rw [hGroup, ← hSubs]
  · cases h

/-! ## The reset job -/

/-- The transaction of `ResetDueSubscriptions` for one row; the row is read again
under the lock, and one that is no longer due, or cannot be read, is skipped. -/
def resetDueOne (env : Env) (o : Outcome) (plan : Plan) (subId : Int) (db : Db) :
    Except Err (Bool × Db) :=
  match o .findSub, db.subs.find? subId with
  | none, some locked =>
    if locked.nextResetTime > 0 ∧ locked.nextResetTime ≤ env.now then do
      let (_, db') ← maybeResetUserSubscriptionWithPlanTx env o plan locked db
      stmt o .commit
      pure (true, db')
    else do
      stmt o .commit
      pure (false, db)
  | _, _ => do
    stmt o .commit
    pure (false, db)

theorem resetDueOne_ok {env : Env} {o : Outcome} {plan : Plan} {subId : Int} {db db' : Db}
    {done : Bool} (h : resetDueOne env o plan subId db = .ok (done, db')) :
    (done = false ∧ db' = db) ∨
      done = true ∧ ∃ locked s, db.subs.find? subId = some locked ∧
        maybeResetUserSubscriptionWithPlanTx env o plan locked db = .ok (s, db') := by
  unfold resetDueOne at h
  split at h
  · rename_i locked _ hLocked
    split at h
    · obtain ⟨⟨s, db₁⟩, hReset, h⟩ := of_bind h
      replace h := of_seq h
      cases h
      exact Or.inr ⟨rfl, locked, s, hLocked, hReset⟩
    · replace h := of_seq h
      cases h
      exact Or.inl ⟨rfl, rfl⟩
  · replace h := of_seq h
    cases h
    exact Or.inl ⟨rfl, rfl⟩

/-- The loop of `ResetDueSubscriptions`, with the outcome of each entry: the
number of resets, and the error that ended the loop early. -/
def resetDueLoop (env : Env) (o : Int → Outcome) :
    List UserSubscription → Nat → Db → (Nat × Option Err) × Db
  | [], resetCount, db => ((resetCount, none), db)
  | sub :: rest, resetCount, db =>
    match getSubscriptionPlanByIdTx env (o sub.id) sub.planId with
    | .error _ => resetDueLoop env o rest resetCount db
    | .ok plan =>
      match transact db (resetDueOne env (o sub.id) plan sub.id db) with
      | (.error e, db') => ((resetCount, some e), db')
      | (.ok done, db') => resetDueLoop env o rest (if done then resetCount + 1 else resetCount) db'

/-- `LIMIT n`, where a limit that is not positive means 200. -/
def limited {α : Type} (limit : Int) (l : List α) : List α :=
  l.take (if limit ≤ 0 then 200 else limit.toNat)

def resetDueSubscriptions (env : Env) (o : Outcome) (each : Int → Outcome) (limit : Int) (db : Db) :
    (Nat × Option Err) × Db :=
  match o .listSubs with
  | some e => ((0, some e), db)
  | none =>
    let due := db.subs.rows.filter fun s =>
      s.nextResetTime > 0 && s.nextResetTime ≤ env.now && s.status = .active
    resetDueLoop env each
      (limited limit (due.insertionSort fun s t => s.nextResetTime ≤ t.nextResetTime)) 0 db

/-! ## The administrator's resets -/

/-- `SubscriptionResetResult`. -/
structure ResetResult where
  planId : Int
  matchedCount : Nat
  resetCount : Nat
  userCount : Nat
  advanceResetTime : Bool
  planTitle : String
  affectedUserIds : List Int
deriving DecidableEq, Repr

def buildSubscriptionResetResult (plan : Plan) (subs : List UserSubscription)
    (advanceResetTime : Bool) : ResetResult :=
  let userIds := (subs.map (·.userId)).reverse.dedup.reverse
  ⟨plan.id, subs.length, subs.length, userIds.length, advanceResetTime, plan.title, userIds⟩

/-- `resetUserSubscriptionTx` for each row in turn. -/
def resetAll (env : Env) (o : Outcome) (plan : Plan) (advanceResetTime : Bool) :
    List UserSubscription → Db → Except Err Db
  | [], db => .ok db
  | sub :: rest, db => do
    stmt o (.saveReset sub.id)
    resetAll env o plan advanceResetTime rest
      (db.saveSub (resetRow env plan advanceResetTime sub))

def adminResetUserSubscriptionsByPlan (env : Env) (o : Outcome) (userId planId : Int)
    (advanceResetTime : Bool) (db : Db) : Except Err (ResetResult × Db) := do
  failIf (userId ≤ 0 ∨ planId ≤ 0) (.msg "invalid userId or planId")
  let plan ← getSubscriptionPlanByIdTx env o planId
  stmt o .listSubs
  let subs := (activeSubs env.now userId db).filter fun s => s.planId = plan.id
  failIf (subs.isEmpty) (.msg "该用户没有有效的此套餐订阅")
  let db' ← resetAll env o plan advanceResetTime subs db
  stmt o .commit
  pure (buildSubscriptionResetResult plan subs advanceResetTime, db')

theorem adminResetUserSubscriptionsByPlan_ok {env : Env} {o : Outcome} {userId planId : Int}
    {advance : Bool} {db db' : Db} {r : ResetResult}
    (h : adminResetUserSubscriptionsByPlan env o userId planId advance db = .ok (r, db')) :
    ∃ plan, let subs := (activeSubs env.now userId db).filter fun s => s.planId = plan.id
      resetAll env o plan advance subs db = .ok db' ∧
        r = buildSubscriptionResetResult plan subs advance := by
  replace h := of_seq h
  obtain ⟨plan, -, h⟩ := of_bind h
  replace h := of_seq h
  replace h := of_seq h
  obtain ⟨db₁, hReset, h⟩ := of_bind h
  replace h := of_seq h
  cases h
  exact ⟨plan, hReset, rfl⟩

/-- `ORDER BY user_id ASC, end_time ASC, id ASC`. -/
def userThenEnd (s t : UserSubscription) : Prop :=
  s.userId < t.userId ∨ (s.userId = t.userId ∧ endsBefore s t)

instance : DecidableRel userThenEnd := fun s t =>
  inferInstanceAs (Decidable (s.userId < t.userId ∨ (s.userId = t.userId ∧ endsBefore s t)))

def adminResetPlanSubscriptions (env : Env) (o : Outcome) (planId : Int) (advanceResetTime : Bool)
    (db : Db) : Except Err (ResetResult × Db) := do
  failIf (planId ≤ 0) (.msg "invalid planId")
  let plan ← getSubscriptionPlanByIdTx env o planId
  stmt o .listSubs
  let subs := (db.subs.rows.filter fun s =>
    s.planId = plan.id && s.status = .active && s.endTime > env.now).insertionSort userThenEnd
  let db' ← resetAll env o plan advanceResetTime subs db
  stmt o .commit
  pure (buildSubscriptionResetResult plan subs advanceResetTime, db')

theorem adminResetPlanSubscriptions_ok {env : Env} {o : Outcome} {planId : Int} {advance : Bool}
    {db db' : Db} {r : ResetResult}
    (h : adminResetPlanSubscriptions env o planId advance db = .ok (r, db')) :
    ∃ plan, let subs := (db.subs.rows.filter fun s =>
        s.planId = plan.id && s.status = .active && s.endTime > env.now).insertionSort userThenEnd
      resetAll env o plan advance subs db = .ok db' ∧
        r = buildSubscriptionResetResult plan subs advance := by
  replace h := of_seq h
  obtain ⟨plan, -, h⟩ := of_bind h
  replace h := of_seq h
  obtain ⟨db₁, hReset, h⟩ := of_bind h
  replace h := of_seq h
  cases h
  exact ⟨plan, hReset, rfl⟩

/-! ## Expiry -/

def dueToExpire (now : Int) (s : UserSubscription) : Bool :=
  s.status = .active && s.endTime > 0 && s.endTime ≤ now

/-- The group a user falls back to when the row is the last one that expired. -/
def expiryTarget (lastExpired : UserSubscription) (currentGroup : String) : Option String :=
  let downgradeGroup := trimSpace lastExpired.downgradeGroup
  let upgradeGroup := trimSpace lastExpired.upgradeGroup
  let prevGroup := trimSpace lastExpired.prevUserGroup
  let target :=
    if downgradeGroup ≠ "" then downgradeGroup
    else if upgradeGroup = "" ∨ prevGroup = "" ∨ currentGroup ≠ upgradeGroup then ""
    else prevGroup
  if target = "" ∨ target = currentGroup then none else some target

/-- The most recently ended row of the user that defines a group change. -/
def lastExpired (userId : Int) (db : Db) : Option UserSubscription :=
  ((db.subs.rows.filter fun s => s.userId = userId && s.status = .expired &&
    (s.downgradeGroup ≠ "" || s.upgradeGroup ≠ "")).insertionSort endsBefore).getLast?

def expireGroupTx (o : Outcome) (now userId : Int) (db : Db) : Except Err Db :=
  if hasUpgraded o now userId (fun _ => true) db then .ok db
  else match o (.findExpired userId), lastExpired userId db with
    | none, some last => do
      let currentGroup ← getUserGroupByIdTx o userId db
      match expiryTarget last currentGroup with
      | none => pure db
      | some target =>
        stmt o (.updateGroup userId)
        pure (db.setGroup userId target)
    | _, _ => .ok db

def expireRows (now userId : Int) (db : Db) : Db :=
  { db with
    subs := db.subs.modify (fun s => s.userId = userId && dueToExpire now s)
      (fun s => { s with status := .expired }) fun _ => rfl }

/-- The transaction of `ExpireDueSubscriptions` for one user. -/
def expireUserTx (o : Outcome) (now userId : Int) (db : Db) : Except Err (Unit × Db) := do
  stmt o (.updateStatus userId)
  let db' ← expireGroupTx o now userId (expireRows now userId db)
  stmt o .commit
  pure ((), db')

/-- The loop of `ExpireDueSubscriptions` over the users: the number of expired
rows, and the error that ended the loop early. The count grows inside the
transaction and is not taken back when the transaction fails later on. -/
def expireLoop (o : Int → Outcome) (now : Int) : List Int → Nat → Db → (Nat × Option Err) × Db
  | [], expiredCount, db => ((expiredCount, none), db)
  | userId :: rest, expiredCount, db =>
    let n := if (o userId (.updateStatus userId)).isNone then
      (db.subs.rows.filter fun s => s.userId = userId && dueToExpire now s).length else 0
    match transact db (expireUserTx (o userId) now userId db) with
    | (.error e, db') => ((expiredCount + n, some e), db')
    | (.ok _, db') => expireLoop o now rest (expiredCount + n) db'

def expireDueSubscriptions (env : Env) (o : Outcome) (each : Int → Outcome) (limit : Int)
    (db : Db) : (Nat × Option Err) × Db :=
  match o .listSubs with
  | some e => ((0, some e), db)
  | none =>
    let subs := limited limit
      ((db.subs.rows.filter (dueToExpire env.now)).insertionSort endsBefore)
    let userIds := ((subs.map (·.userId)).filter fun u => u > 0).dedup
    expireLoop each env.now (env.rangeOrder userIds) 0 db

/-! ## Invalidation and deletion -/

/-- `AdminInvalidateUserSubscription`: the group the user falls back to, empty for none. -/
def adminInvalidateUserSubscription (env : Env) (o : Outcome) (subId : Int) (db : Db) :
    Except Err (String × Db) := do
  failIf (subId ≤ 0) (.msg "invalid userSubscriptionId")
  stmt o .findSub
  let sub ← found (db.subs.find? subId)
  stmt o .saveSub
  let sub' := { sub with status := .cancelled, endTime := env.now }
  let r ← downgradeUserGroupForSubscriptionTx o env.now sub' (db.saveSub sub')
  stmt o .commit
  pure r

/-- `AdminDeleteUserSubscription`: the group the user falls back to, empty for none. -/
def adminDeleteUserSubscription (env : Env) (o : Outcome) (subId : Int) (db : Db) :
    Except Err (String × Db) := do
  failIf (subId ≤ 0) (.msg "invalid userSubscriptionId")
  stmt o .findSub
  let sub ← found (db.subs.find? subId)
  let (target, db) ← downgradeUserGroupForSubscriptionTx o env.now sub db
  stmt o .deleteSub
  stmt o .commit
  pure (target, { db with subs := db.subs.delete fun s => s.id = subId })

end Qapi.Subscription
