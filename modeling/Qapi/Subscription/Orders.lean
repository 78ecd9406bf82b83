import Qapi.Core.Machine
import Qapi.Subscription.Calls
import Qapi.Wallet.TopUp

/-!
# Subscription orders

`CompleteSubscriptionOrder` and `ExpireSubscriptionOrder`. Both lock the row of the
order, so a transaction is one step. A completion creates the subscription, writes the
mirrored top-up record and completes the order in one transaction; an order leaves
`pending` at most once, so in every interleaving it yields at most one subscription.

The cache of the user's group and the log entry are written after the commit and are
left out.
-/

namespace Qapi.Orders

open Qapi.Core Subscription List Table
open Wallet (TopUp TopUpStatus PaymentProvider errPaymentMethodMismatch)

/-- `SubscriptionOrder`; the trade number has a unique index. -/
structure SubscriptionOrder where
  tradeNo : String
  userId : Int
  planId : Int
  money : ℚ
  paymentMethod : String
  paymentProvider : PaymentProvider
  status : TopUpStatus
  createTime : Int
  completeTime : Int
  providerPayload : String
deriving DecidableEq, Repr

structure Db where
  orders : Table SubscriptionOrder.tradeNo
  topUps : Table TopUp.tradeNo
  subscriptions : Subscription.Db

/-- The statements on the orders and the top-up records. -/
inductive OrderStep
  | lockOrder
  | findTopUp
  | createTopUp
  | saveTopUp
  | saveOrder
  | commit
deriving DecidableEq, Repr

/-- Which statements of a call fail: those on the orders, and those of the purchase. -/
structure Outcome where
  order : OrderStep → Option Err
  purchase : Subscription.Outcome

def Outcome.good : Outcome := ⟨fun _ => none, .good⟩

def errSubscriptionOrderNotFound : Err := .msg "subscription order not found"

def errSubscriptionOrderStatusInvalid : Err := .msg "subscription order status invalid"

/-- `tx.Save(&order)`. -/
def Db.saveOrder (db : Db) (order : SubscriptionOrder) : Db :=
  { db with orders := db.orders.save order }

/-- The order under its row lock; any error of the query is reported as a missing order. -/
def lockOrder (o : Outcome) (tradeNo : String) (db : Db) : Except Err SubscriptionOrder :=
  match o.order .lockOrder, db.orders.find? tradeNo with
  | none, some order => .ok order
  | _, _ => .error errSubscriptionOrderNotFound

theorem lockOrder_ok {o : Outcome} {tradeNo : String} {db : Db} {order : SubscriptionOrder}
    (h : lockOrder o tradeNo db = .ok order) : db.orders.find? tradeNo = some order := by
  unfold lockOrder at h
  split at h
  · rename_i hFind
    cases h
    exact hFind
  · cases h

/-! ## The mirrored top-up record -/

def mirrored (now : Int) (order : SubscriptionOrder) : TopUp where
  tradeNo := order.tradeNo
  userId := order.userId
  amount := 0
  money := order.money
  paymentMethod := order.paymentMethod
  paymentProvider := .unset
  createTime := order.createTime
  completeTime := now
  status := .success

def refreshed (now : Int) (order : SubscriptionOrder) (topUp : TopUp) : TopUp :=
  { topUp with
    money := order.money
    paymentMethod := if topUp.paymentMethod = "" then order.paymentMethod else topUp.paymentMethod
    createTime := if topUp.createTime = 0 then order.createTime else topUp.createTime
    completeTime := now
    status := .success }

def upsertSubscriptionTopUpTx (o : Outcome) (now : Int) (order : SubscriptionOrder) (db : Db) :
    Except Err Db := do
  stmt o.order .findTopUp
  match db.topUps.find? order.tradeNo with
  | none =>
    stmt o.order .createTopUp
    match db.topUps.create (mirrored now order) with
    | some topUps => pure { db with topUps := topUps }
    | none => throw (.msg "UNIQUE constraint failed")
  | some topUp =>
    failIf (topUp.paymentMethod ≠ "" ∧ topUp.paymentMethod ≠ order.paymentMethod)
      errPaymentMethodMismatch
    stmt o.order .saveTopUp
    pure { db with topUps := db.topUps.save (refreshed now order topUp) }

/-- What writing the mirrored record leaves behind. -/
structure Mirrored (order : SubscriptionOrder) (db db' : Db) : Prop where
  record : ∃ topUp, db'.topUps.find? order.tradeNo = some topUp ∧ topUp.status = .success ∧
    topUp.money = order.money
  others : ∀ k, k ≠ order.tradeNo → db'.topUps.find? k = db.topUps.find? k
  tables : db'.orders = db.orders ∧ db'.subscriptions = db.subscriptions

theorem upsertSubscriptionTopUpTx_ok {o : Outcome} {now : Int} {order : SubscriptionOrder}
    {db db' : Db} (h : upsertSubscriptionTopUpTx o now order db = .ok db') :
    Mirrored order db db' := by
  replace h := of_seq h
  split at h
  · replace h := of_seq h
    split at h
    · rename_i topUps hCreate
      cases h
      refine ⟨⟨mirrored now order, ?_, rfl, rfl⟩, ?_, rfl, rfl⟩
      · exact find?_create_self hCreate
      · intro k hk
        exact find?_create_of_ne hCreate hk
    · cases h
  · rename_i topUp hFind
    replace h := of_seq h
    replace h := of_seq h
    cases h
    have hKey : topUp.tradeNo = order.tradeNo := key_of_find? hFind
    refine ⟨⟨refreshed now order topUp, ?_, rfl, rfl⟩, ?_, rfl, rfl⟩
    · exact find?_save_self hKey hFind
    · intro k hk
      apply find?_save_of_ne
      show k ≠ topUp.tradeNo
      rw [hKey]
      exact hk

/-! ## Completing and expiring an order -/

def SubscriptionOrder.complete (order : SubscriptionOrder) (now : Int)
    (providerPayload actualPaymentMethod : String) : SubscriptionOrder :=
  { order with
    status := .success
    completeTime := now
    providerPayload := if providerPayload ≠ "" then providerPayload else order.providerPayload
    paymentMethod :=
      if actualPaymentMethod ≠ "" then actualPaymentMethod else order.paymentMethod }

def SubscriptionOrder.expire (order : SubscriptionOrder) (now : Int) : SubscriptionOrder :=
  { order with status := .expired, completeTime := now }

/-- `CompleteSubscriptionOrder`: the subscription that it creates, and the tables. `newId` is the
id that the table assigns, `now` the clock of the server. A plan that is no longer enabled makes
no difference. -/
def completeSubscriptionOrder (env : Env) (o : Outcome) (newId now : Int)
    (tradeNo providerPayload : String) (expected : PaymentProvider) (actualPaymentMethod : String)
    (db : Db) : Except Err (Option UserSubscription × Db) := do
  failIf (tradeNo = "") (.msg "tradeNo is empty")
  let order ← lockOrder o tradeNo db
  failIf (expected ≠ .unset ∧ order.paymentProvider ≠ expected) errPaymentMethodMismatch
  if order.status = .success then
    stmt o.order .commit
    pure (none, db)
  else
    failIf (order.status ≠ .pending) errSubscriptionOrderStatusInvalid
    let plan ← getSubscriptionPlanByIdTx env o.purchase order.planId
    let (sub, subscriptions) ←
      createUserSubscriptionFromPlanTx env o.purchase newId order.userId plan db.subscriptions
    let db ← upsertSubscriptionTopUpTx o now order { db with subscriptions := subscriptions }
    stmt o.order .saveOrder
    stmt o.order .commit
    pure (some sub, db.saveOrder (order.complete now providerPayload actualPaymentMethod))

def expireSubscriptionOrder (o : Outcome) (now : Int) (tradeNo : String)
    (expected : PaymentProvider) (db : Db) : Except Err Db := do
  failIf (tradeNo = "") (.msg "tradeNo is empty")
  let order ← lockOrder o tradeNo db
  failIf (expected ≠ .unset ∧ order.paymentProvider ≠ expected) errPaymentMethodMismatch
  if order.status ≠ .pending then
    stmt o.order .commit
    pure db
  else
    stmt o.order .saveOrder
    stmt o.order .commit
    pure (db.saveOrder (order.expire now))

/-! ## Runs -/

inductive Call
  | complete (env : Env) (o : Outcome) (newId now : Int) (tradeNo providerPayload : String)
      (expected : PaymentProvider) (actualPaymentMethod : String)
  | expire (o : Outcome) (now : Int) (tradeNo : String) (expected : PaymentProvider)

/-- The tables, and the subscriptions created so far with the orders they were created for. -/
structure State where
  db : Db
  created : List (String × UserSubscription)

def State.createdFor (s : State) (tradeNo : String) : List UserSubscription :=
  (s.created.filter fun c => c.1 = tradeNo).map Prod.snd

def step (s : State) : Call → State
  | .complete env o newId now tradeNo providerPayload expected actualPaymentMethod =>
    match completeSubscriptionOrder env o newId now tradeNo providerPayload expected
      actualPaymentMethod s.db with
    | .ok (sub, db) => ⟨db, s.created ++ sub.toList.map fun r => (tradeNo, r)⟩
    | .error _ => s
  | .expire o now tradeNo expected =>
    match expireSubscriptionOrder o now tradeNo expected s.db with
    | .ok db => ⟨db, s.created⟩
    | .error _ => s

/-- What a call can do: nothing, expire a pending order, or complete one. -/
inductive Effect (s : State) : State → Prop
  | nothing : Effect s s
  | expire (tradeNo : String) (order : SubscriptionOrder)
      (hFind : s.db.orders.find? tradeNo = some order) (hPending : order.status = .pending)
      (now : Int) : Effect s ⟨s.db.saveOrder (order.expire now), s.created⟩
  | complete (tradeNo : String) (order : SubscriptionOrder)
      (hFind : s.db.orders.find? tradeNo = some order) (hPending : order.status = .pending)
      (now : Int) (payload method : String) (sub : UserSubscription) (subs : Subscription.Db)
      (db : Db) (hOwner : sub.userId = order.userId)
      (hCreated : s.db.subscriptions.subs.create sub = some subs.subs)
      (hMirrored : Mirrored order { s.db with subscriptions := subs } db) :
      Effect s ⟨db.saveOrder (order.complete now payload method), s.created ++ [(tradeNo, sub)]⟩

theorem step_effect (s : State) (c : Call) : Effect s (step s c) := by
  cases c with
  | complete env o newId now tradeNo providerPayload expected actualPaymentMethod =>
    unfold step
    dsimp only
    split
    · rename_i created db h
      replace h := of_seq h
      obtain ⟨order, hFind, h⟩ := of_bind h
      replace h := of_seq h
      split at h
      · replace h := of_seq h
        cases h
        rw [Option.toList_none, map_nil, append_nil]
        exact .nothing
      · obtain ⟨_, hPending, h⟩ := of_bind h
        obtain ⟨plan, -, h⟩ := of_bind h
        obtain ⟨⟨sub, subs⟩, hCreate, h⟩ := of_bind h
        obtain ⟨db₁, hUpsert, h⟩ := of_bind h
        replace h := of_seq h
        replace h := of_seq h
        cases h
        rw [failIf_eq_ok, not_not] at hPending
        have hPurchased := createUserSubscriptionFromPlanTx_ok hCreate
        obtain ⟨endUnix, prevGroup, -, -, hRow⟩ := hPurchased.row
        have hOwner : sub.userId = order.userId := by rw [hRow]; rfl
        exact .complete tradeNo order (lockOrder_ok hFind) hPending now _ _ sub subs db₁ hOwner
          hPurchased.created (upsertSubscriptionTopUpTx_ok hUpsert)
    · exact .nothing
  | expire o now tradeNo expected =>
    unfold step
    dsimp only
    split
    · rename_i db h
      replace h := of_seq h
      obtain ⟨order, hFind, h⟩ := of_bind h
      replace h := of_seq h
      split at h
      · replace h := of_seq h
        cases h
        exact .nothing
      · rename_i hPending
        replace h := of_seq h
        replace h := of_seq h
        cases h
        exact .expire tradeNo order (lockOrder_ok hFind) (not_not.mp hPending) now
    · exact .nothing

/-! ## At most one subscription for each order -/

/-- Every created row is stored, behind those that were there at first. -/
def RowsAdded (rows : List UserSubscription) (s : State) : Prop :=
  s.db.subscriptions.subs.rows = rows ++ s.created.map Prod.snd

theorem RowsAdded.step {rows : List UserSubscription} {s : State} (h : RowsAdded rows s)
    (c : Call) : RowsAdded rows (Orders.step s c) := by
  have hEffect := step_effect s c
  generalize Orders.step s c = s' at hEffect
  cases hEffect with
  | nothing => exact h
  | expire tradeNo order hFind hPending now => exact h
  | complete tradeNo order hFind hPending now payload method sub subs db hOwner hCreated hMirrored =>
    show db.subscriptions.subs.rows = _
    have hSubs : db.subscriptions.subs.rows = s.db.subscriptions.subs.rows ++ [sub] := by
      rw [hMirrored.tables.2]
      exact rows_create hCreated
    rw [hSubs, h, append_assoc, map_append]
    rfl

/-- A subscription has been created for the order and it is completed, or neither. -/
inductive Yield (tradeNo : String) (s : State) : Prop
  | none (hNone : s.createdFor tradeNo = [])
      (hOrder : ∀ order ∈ s.db.orders.find? tradeNo, order.status ≠ .success)
  | one (sub : UserSubscription) (hOne : s.createdFor tradeNo = [sub])
      (order : SubscriptionOrder) (hFind : s.db.orders.find? tradeNo = some order)
      (hSuccess : order.status = .success) (hOwner : sub.userId = order.userId)
      (hMirror : ∃ topUp, s.db.topUps.find? tradeNo = some topUp ∧ topUp.status = .success ∧
        topUp.money = order.money)

section

variable {tradeNo : String} {s s' : State}

/-- What leaves the order alone leaves its subscription alone. -/
theorem Yield.frame (h : Yield tradeNo s)
    (hOrder : s'.db.orders.find? tradeNo = s.db.orders.find? tradeNo)
    (hTopUp : s'.db.topUps.find? tradeNo = s.db.topUps.find? tradeNo)
    (hCreated : s'.createdFor tradeNo = s.createdFor tradeNo) : Yield tradeNo s' := by
  cases h with
  | none hNone hOpen =>
    rw [← hCreated] at hNone
    rw [← hOrder] at hOpen
    exact .none hNone hOpen
  | one sub hOne order hFind hSuccess hOwner hMirror =>
    rw [← hCreated] at hOne
    rw [← hOrder] at hFind
    rw [← hTopUp] at hMirror
    exact .one sub hOne order hFind hSuccess hOwner hMirror

variable {order : SubscriptionOrder}

theorem Yield.of_pending (h : Yield tradeNo s) (hFind : s.db.orders.find? tradeNo = some order)
    (hPending : order.status = .pending) : s.createdFor tradeNo = [] := by
  cases h with
  | none hNone hOpen => exact hNone
  | one sub hOne order' hFind' hSuccess =>
    rw [hFind] at hFind'
    cases hFind'
    rw [hPending] at hSuccess
    cases hSuccess

theorem Yield.expire (h : Yield tradeNo s) {k : String}
    (hFind : s.db.orders.find? k = some order) (hPending : order.status = .pending) (now : Int) :
    Yield tradeNo ⟨s.db.saveOrder (order.expire now), s.created⟩ := by
  have hKey : order.tradeNo = k := key_of_find? hFind
  by_cases hk : tradeNo = k
  · subst hk
    refine .none (h.of_pending hFind hPending) ?_
    intro order' hOrder'
    have hSaved : (s.db.orders.save (order.expire now)).find? tradeNo = some (order.expire now) :=
      find?_save_self hKey hFind
    obtain rfl : order.expire now = order' := Option.some.inj (hSaved.symm.trans hOrder')
    intro hSuccess
    cases hSuccess
  · refine h.frame (find?_save_of_ne ?_) rfl rfl
    show tradeNo ≠ order.tradeNo
    rw [hKey]
    exact hk

theorem Yield.complete (h : Yield tradeNo s) {k : String}
    (hFind : s.db.orders.find? k = some order) (hPending : order.status = .pending) (now : Int)
    (payload method : String) {sub : UserSubscription} {subs : Subscription.Db} {db : Db}
    (hOwner : sub.userId = order.userId)
    (hMirrored : Mirrored order { s.db with subscriptions := subs } db) :
    Yield tradeNo
      ⟨db.saveOrder (order.complete now payload method), s.created ++ [(k, sub)]⟩ := by
  have hKey : order.tradeNo = k := key_of_find? hFind
  have hOrders : db.orders = s.db.orders := hMirrored.tables.1
  by_cases hk : tradeNo = k
  · subst hk
    have hNone := h.of_pending hFind hPending
    have hOne : State.createdFor ⟨db.saveOrder (order.complete now payload method),
        s.created ++ [(tradeNo, sub)]⟩ tradeNo = s.createdFor tradeNo ++ [sub] := by
      simp [State.createdFor]
    rw [hNone] at hOne
    refine .one sub hOne (order.complete now payload method) ?_ rfl hOwner ?_
    · show (db.orders.save _).find? tradeNo = _
      rw [hOrders]
      exact find?_save_self hKey hFind
    · rw [← hKey]
      exact hMirrored.record
  · have hne : tradeNo ≠ order.tradeNo := by
      rw [hKey]
      exact hk
    refine h.frame ?_ (hMirrored.others tradeNo hne) ?_
    · show (db.orders.save _).find? tradeNo = _
      rw [hOrders]
      exact find?_save_of_ne hne
    · simp [State.createdFor, Ne.symm hk]

theorem Yield.step (h : Yield tradeNo s) (c : Call) : Yield tradeNo (Orders.step s c) := by
  have hEffect := step_effect s c
  generalize Orders.step s c = s' at hEffect
  cases hEffect with
  | nothing => exact h
  | expire k order hFind hPending now => exact h.expire hFind hPending now
  | complete k order hFind hPending now payload method sub subs db hOwner hCreated hMirrored =>
    exact h.complete hFind hPending now payload method hOwner hMirrored

theorem step_of_not_pending (hFind : s.db.orders.find? tradeNo = some order)
    (hStatus : order.status ≠ .pending) (c : Call) :
    (step s c).db.orders.find? tradeNo = some order := by
  -- the order that a call writes is pending, so it is another one
  have hKept : ∀ {k order'} (row : SubscriptionOrder), s.db.orders.find? k = some order' →
      order'.status = .pending → row.tradeNo = order'.tradeNo →
      (s.db.orders.save row).find? tradeNo = some order := by
    intro k order' row hFind' hPending hRow
    have hKey : order'.tradeNo = k := key_of_find? hFind'
    have hne : tradeNo ≠ row.tradeNo := by
      intro hSame
      rw [← hKey, ← hRow, ← hSame, hFind] at hFind'
      cases hFind'
      exact hStatus hPending
    rw [find?_save_of_ne hne, hFind]
  have hEffect := step_effect s c
  generalize step s c = s' at hEffect
  cases hEffect with
  | nothing => exact hFind
  | expire k order' hFind' hPending now => exact hKept (order'.expire now) hFind' hPending rfl
  | complete k order' hFind' hPending now payload method sub subs db hOwner hCreated hMirrored =>
    show (db.orders.save _).find? tradeNo = _
    rw [hMirrored.tables.1]
    exact hKept (order'.complete now payload method) hFind' hPending rfl

end

/-- In every interleaving of completions and expirations, on this and on other orders: at most one
subscription is created for an order, exactly one if it ends completed and none otherwise, and it
goes to the owner; the mirrored record exists at most once, and it does for a completed order; an
order that has left `pending` never changes again. -/
theorem order_yields_at_most_one_subscription {tradeNo : String} {s : State}
    (hFresh : s.created = [])
    (hOpen : ∀ order ∈ s.db.orders.find? tradeNo, order.status ≠ .success) (l : List Call) :
    let s' := run step s l
    (s'.createdFor tradeNo).length ≤ 1 ∧
      ((s'.createdFor tradeNo).length = 1 ↔
        ∃ order, s'.db.orders.find? tradeNo = some order ∧ order.status = .success) ∧
      (∀ sub ∈ s'.createdFor tradeNo, ∃ order topUp, s'.db.orders.find? tradeNo = some order ∧
        sub.userId = order.userId ∧ s'.db.topUps.find? tradeNo = some topUp ∧
        topUp.status = .success ∧ topUp.money = order.money) ∧
      s'.db.subscriptions.subs.rows =
        s.db.subscriptions.subs.rows ++ s'.created.map Prod.snd ∧
      (s'.db.topUps.rows.filter fun t => t.tradeNo = tradeNo).length ≤ 1 ∧
      ∀ l₁ l₂ order, l = l₁ ++ l₂ → (run step s l₁).db.orders.find? tradeNo = some order →
        order.status ≠ .pending → s'.db.orders.find? tradeNo = some order := by
  intro s'
  have hYield : Yield tradeNo s' :=
    run_invariant (I := Yield tradeNo) (fun _ c h => h.step c)
      (.none (by simp [State.createdFor, hFresh]) hOpen) l
  have hRows : RowsAdded s.db.subscriptions.subs.rows s' :=
    run_invariant (I := RowsAdded s.db.subscriptions.subs.rows) (fun _ c h => h.step c)
      (by simp [RowsAdded, hFresh]) l
  refine ⟨?_, ?_, ?_, hRows, length_filter_key_le_one _ _, ?_⟩
  · cases hYield with
    | none hNone => simp [hNone]
    | one sub hOne => simp [hOne]
  · cases hYield with
    | none hNone hOrder =>
      simp only [hNone, length_nil, zero_ne_one, false_iff, not_exists, not_and]
      exact hOrder
    | one sub hOne order hFind hSuccess =>
      simp only [hOne, length_singleton, true_iff]
      exact ⟨order, hFind, hSuccess⟩
  · intro sub hSub
    cases hYield with
    | none hNone =>
      rw [hNone] at hSub
      cases hSub
    | one sub' hOne order hFind hSuccess hOwner hMirror =>
      rw [hOne] at hSub
      obtain rfl := mem_singleton.mp hSub
      obtain ⟨topUp, hTopUp, hDone, hMoney⟩ := hMirror
      exact ⟨order, topUp, hFind, hOwner, hTopUp, hDone, hMoney⟩
  · intro l₁ l₂ order hl hFind hStatus
    show (run step s l).db.orders.find? tradeNo = _
    rw [hl, run_append]
    exact run_invariant (I := fun s : State => s.db.orders.find? tradeNo = some order)
      (fun _ c h => step_of_not_pending h hStatus c) hFind l₂

def sampleOrder : SubscriptionOrder :=
  ⟨"S1", 1, 1, 10, "card", .stripe, .pending, 100, 0, ""⟩

def sampleDb : Db :=
  ⟨⟨[sampleOrder], by simp⟩, .empty, .initial fun _ => "default"⟩

/-- A callback of another gateway, an expiration that cannot be written, two callbacks and an
expiration: one subscription. -/
theorem race_yields_one_subscription :
    let s : State := ⟨sampleDb, []⟩
    let l : List Call := [
      .complete (utcEnv 100000) .good 1 100000 "S1" "" .creem "",
      .expire ⟨fun _ => some (.msg "database is locked"), .good⟩ 100000 "S1" .stripe,
      .complete (utcEnv 100001) .good 1 100001 "S1" "paid" .stripe "",
      .complete (utcEnv 100002) .good 2 100002 "S1" "paid" .stripe "",
      .expire .good 100003 "S1" .stripe]
    ((run step s l).createdFor "S1").length ≤ 1 ∧
      (∃ order, (run step s l).db.orders.find? "S1" = some order ∧ order.status = .success) ∧
      ((run step s l).createdFor "S1").length = 1 := by
  intro s l
  have hOpen : ∀ order ∈ s.db.orders.find? "S1", order.status ≠ .success := by decide
  have hYield := order_yields_at_most_one_subscription rfl hOpen l
  have hOne : ((run step s l).createdFor "S1").length = 1 := by decide
  exact ⟨hYield.1, hYield.2.1.mp hOne, hOne⟩

end Qapi.Orders
