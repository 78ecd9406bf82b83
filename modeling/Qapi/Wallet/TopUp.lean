import Qapi.Core.Numbers
import Qapi.Core.Result
import Qapi.Core.Table

/-!
# Top-up orders

`model/topup.go`: the orders, and the transactions that move an order out of
`pending`. Each locks the row of the order, so a transaction is one step; an error
rolls all of it back.

Amounts, money and the quota per unit are exact. The quota of a user is a rational,
because `Recharge` adds the product of money and quota per unit as it is.
-/

namespace Qapi.Wallet

open Qapi.Core

inductive PaymentProvider
  | unset
  | epay
  | stripe
  | creem
  | waffo
  | waffoPancake
  | balance
  | other (text : String)
deriving DecidableEq, Repr

inductive TopUpStatus
  | pending
  | success
  | failed
  | expired
  | other (text : String)
deriving DecidableEq, Repr

/-- `TopUp`; the trade number has a unique index. -/
structure TopUp where
  tradeNo : String
  userId : Int
  amount : Int
  money : ℚ
  paymentMethod : String
  paymentProvider : PaymentProvider
  createTime : Int
  completeTime : Int
  status : TopUpStatus
deriving DecidableEq, Repr

structure User where
  quota : ℚ
  email : String
  stripeCustomer : String
deriving DecidableEq, Repr

/-- The orders and the accounts; a user that is missing or deleted has none. -/
structure Db where
  orders : Table TopUp.tradeNo
  users : Int → Option User

inductive TopUpStep
  | lockTopUp
  | saveTopUp
  | findUser
  | updateUser
  | commit
deriving DecidableEq, Repr

abbrev Outcome := TopUpStep → Option Err

def Outcome.good : Outcome := fun _ => none

def errPaymentMethodMismatch : Err := .msg "payment method mismatch"

def errTopUpNotFound : Err := .msg "topup not found"

def errTopUpStatusInvalid : Err := .msg "topup status invalid"

/-- `tx.Save(topUp)`. -/
def Db.saveTopUp (db : Db) (t : TopUp) : Db := { db with orders := db.orders.save t }

/-- `UPDATE users … WHERE id = userId`, which is no error where no row is found. -/
def Db.updateUser (db : Db) (userId : Int) (f : User → User) : Db :=
  { db with users := Function.update db.users userId ((db.users userId).map f) }

def Db.quota (db : Db) (userId : Int) : ℚ := (db.users userId).elim 0 User.quota

/-- The order under its row lock; any error of the query is reported as a missing order. -/
def lockTopUp (o : Outcome) (notFound : Err) (tradeNo : String) (db : Db) : Except Err TopUp :=
  match o .lockTopUp, db.orders.find? tradeNo with
  | none, some t => .ok t
  | _, _ => .error notFound

variable {o : Outcome} {tradeNo : String}

theorem lockTopUp_ok {notFound : Err} {db : Db} {t : TopUp}
    (h : lockTopUp o notFound tradeNo db = .ok t) : db.orders.find? tradeNo = some t := by
  unfold lockTopUp at h
  split at h
  · rename_i hFind
    cases h
    exact hFind
  · cases h

def updatePendingTopUpStatus (o : Outcome) (tradeNo : String) (expected : PaymentProvider)
    (targetStatus : TopUpStatus) (db : Db) : Except Err Db := do
  failIf (tradeNo = "") (.msg "未提供支付单号")
  let t ← lockTopUp o errTopUpNotFound tradeNo db
  failIf (expected ≠ .unset ∧ t.paymentProvider ≠ expected) errPaymentMethodMismatch
  failIf (t.status ≠ .pending) errTopUpStatusInvalid
  stmt o .saveTopUp
  stmt o .commit
  pure (db.saveTopUp { t with status := targetStatus })

/-! ## Completing an order -/

structure Credit where
  userId : Int
  amount : ℚ
deriving DecidableEq, Repr

/-- What the statement that adds the amount to the user's quota credits. -/
def Db.credited (db : Db) (userId : Int) (amount : ℚ) : Option Credit :=
  (db.users userId).map fun _ => ⟨userId, amount⟩

theorem Db.credited_cases (db : Db) (userId : Int) (amount : ℚ) :
    (db.users userId = none ∧ db.credited userId amount = none) ∨
      ((db.users userId).isSome = true ∧ db.credited userId amount = some ⟨userId, amount⟩) := by
  unfold Db.credited
  cases db.users userId with
  | none => exact Or.inl ⟨rfl, rfl⟩
  | some u => exact Or.inr ⟨rfl, rfl⟩

theorem Db.credited_of_isSome {db : Db} {userId : Int} (h : (db.users userId).isSome = true)
    (amount : ℚ) : db.credited userId amount = some ⟨userId, amount⟩ := by
  obtain ⟨u, hUser⟩ := Option.isSome_iff_exists.mp h
  rw [Db.credited, hUser]
  rfl

/-- In what the completing functions differ: the gateway that the order must be of, whether an
order that is completed already is accepted, the error for one that is neither pending nor that,
the quota it adds, whether that has to be positive, whether the user is read first, and the other
columns of the user that change. -/
structure Completion where
  provider : Option PaymentProvider
  acceptsCompleted : Bool
  notPending : Err
  quota : TopUp → ℚ
  checksQuota : Bool
  readsUser : Bool
  fields : User → User

def Completion.readUser (c : Completion) (o : Outcome) (user : Option User) : Except Err Unit :=
  if c.readsUser then do
    stmt o .findUser
    failIf (user = none) recordNotFound
  else .ok ()

def TopUp.complete (t : TopUp) (now : Int) : TopUp :=
  { t with completeTime := now, status := .success }

def Db.complete (db : Db) (c : Completion) (now : Int) (t : TopUp) : Db :=
  (db.saveTopUp (t.complete now)).updateUser t.userId
    fun u => { c.fields u with quota := u.quota + c.quota t }

def completeTx (o : Outcome) (c : Completion) (now : Int) (tradeNo : String) (db : Db) :
    Except Err (Option Credit × Db) := do
  let t ← lockTopUp o (.msg "充值订单不存在") tradeNo db
  failIf (c.provider ≠ none ∧ c.provider ≠ some t.paymentProvider) errPaymentMethodMismatch
  if c.acceptsCompleted ∧ t.status = .success then
    stmt o .commit
    pure (none, db)
  else
    failIf (t.status ≠ .pending) c.notPending
    failIf (c.checksQuota ∧ c.quota t ≤ 0) (.msg "无效的充值额度")
    stmt o .saveTopUp
    c.readUser o (db.users t.userId)
    stmt o .updateUser
    stmt o .commit
    pure (db.credited t.userId (c.quota t), db.complete c now t)

/-- Everything that a completing transaction can do: nothing, or complete the pending order. -/
theorem completeTx_ok {c : Completion} {now : Int} {db db' : Db} {r : Option Credit}
    (h : completeTx o c now tradeNo db = .ok (r, db')) :
    (r = none ∧ db' = db) ∨
      ∃ t, db.orders.find? tradeNo = some t ∧ t.status = .pending ∧
        (c.provider = none ∨ c.provider = some t.paymentProvider) ∧
        (c.checksQuota = true → 0 < c.quota t) ∧
        r = db.credited t.userId (c.quota t) ∧ db' = db.complete c now t := by
  obtain ⟨t, hFind, h⟩ := of_bind h
  obtain ⟨_, hProvider, h⟩ := of_bind h
  split at h
  · replace h := of_seq h
    cases h
    exact Or.inl ⟨rfl, rfl⟩
  · obtain ⟨_, hPending, h⟩ := of_bind h
    obtain ⟨_, hQuota, h⟩ := of_bind h
    replace h := of_seq h
    replace h := of_seq h
    replace h := of_seq h
    replace h := of_seq h
    cases h
    simp only [failIf_eq_ok, not_and_or, not_not, not_le] at hProvider hPending hQuota
    refine Or.inr ⟨t, lockTopUp_ok hFind, hPending, hProvider, ?_, rfl, rfl⟩
    intro hChecks
    exact hQuota.resolve_left (not_not.mpr hChecks)

/-- The error that the gateways' functions return for any error of their transaction. -/
def maskError {α : Type} : Except Err α → Except Err α
  | .ok a => .ok a
  | .error _ => .error (.msg "充值失败，请稍后重试")

theorem maskError_eq_ok {α : Type} {x : Except Err α} {a : α} :
    maskError x = .ok a ↔ x = .ok a := by
  cases x <;> simp [maskError]

section

variable (quotaPerUnit : ℚ)

/-- `int(dAmount.Mul(dQuotaPerUnit).IntPart())`. -/
def amountQuota (t : TopUp) : Int := truncate (t.amount * quotaPerUnit)

/-- `int(decimal.NewFromFloat(topUp.Money).Mul(dQuotaPerUnit).IntPart())`. -/
def moneyQuota (t : TopUp) : Int := truncate (t.money * quotaPerUnit)

def manualQuota (t : TopUp) : Int :=
  if t.paymentProvider = .stripe then moneyQuota quotaPerUnit t else amountQuota quotaPerUnit t

def rechargeCompletion (customerId : String) : Completion where
  provider := some .stripe
  acceptsCompleted := false
  notPending := .msg "充值订单状态错误"
  quota t := t.money * quotaPerUnit
  checksQuota := false
  readsUser := false
  fields u := { u with stripeCustomer := customerId }

def rechargeCreemCompletion (customerEmail : String) : Completion where
  provider := some .creem
  acceptsCompleted := false
  notPending := .msg "充值订单状态错误"
  quota t := t.amount
  checksQuota := false
  readsUser := customerEmail ≠ ""
  -- the address that was paid with becomes that of a user who has none
  fields u := if customerEmail ≠ "" ∧ u.email = "" then { u with email := customerEmail } else u

/-- What `RechargeWaffo` and `RechargeWaffoPancake` have in common. -/
def waffoCompletion (provider : PaymentProvider) : Completion where
  provider := some provider
  acceptsCompleted := true
  notPending := .msg "充值订单状态错误"
  quota t := amountQuota quotaPerUnit t
  checksQuota := true
  readsUser := false
  fields u := u

def manualCompletion : Completion where
  provider := none
  acceptsCompleted := true
  notPending := .msg "订单状态不是待支付，无法补单"
  quota t := manualQuota quotaPerUnit t
  checksQuota := true
  readsUser := false
  fields u := u

/-- A gateway's function: a missing trade number is refused, and the error of the transaction is
not passed on. -/
def gatewayRecharge (o : Outcome) (c : Completion) (now : Int) (tradeNo : String) (db : Db) :
    Except Err (Option Credit × Db) := do
  failIf (tradeNo = "") (.msg "未提供支付单号")
  maskError (completeTx o c now tradeNo db)

def recharge (o : Outcome) (now : Int) (referenceId customerId : String) (db : Db) :
    Except Err (Option Credit × Db) :=
  gatewayRecharge o (rechargeCompletion quotaPerUnit customerId) now referenceId db

def rechargeCreem (o : Outcome) (now : Int) (referenceId customerEmail : String) (db : Db) :
    Except Err (Option Credit × Db) :=
  gatewayRecharge o (rechargeCreemCompletion customerEmail) now referenceId db

def rechargeWaffo (o : Outcome) (now : Int) (tradeNo : String) (db : Db) :
    Except Err (Option Credit × Db) :=
  gatewayRecharge o (waffoCompletion quotaPerUnit .waffo) now tradeNo db

def rechargeWaffoPancake (o : Outcome) (now : Int) (tradeNo : String) (db : Db) :
    Except Err (Option Credit × Db) :=
  gatewayRecharge o (waffoCompletion quotaPerUnit .waffoPancake) now tradeNo db

def manualCompleteTopUp (o : Outcome) (now : Int) (tradeNo : String) (db : Db) :
    Except Err (Option Credit × Db) := do
  failIf (tradeNo = "") (.msg "未提供订单号")
  completeTx o (manualCompletion quotaPerUnit) now tradeNo db

end

theorem gatewayRecharge_ok {c : Completion} {now : Int} {db : Db} {r : Option Credit × Db}
    (h : gatewayRecharge o c now tradeNo db = .ok r) : completeTx o c now tradeNo db = .ok r := by
  replace h := of_seq h
  exact maskError_eq_ok.mp h

theorem manualCompleteTopUp_ok {quotaPerUnit : ℚ} {now : Int} {db : Db} {r : Option Credit × Db}
    (h : manualCompleteTopUp quotaPerUnit o now tradeNo db = .ok r) :
    completeTx o (manualCompletion quotaPerUnit) now tradeNo db = .ok r := by
  replace h := of_seq h
  exact h

end Qapi.Wallet
