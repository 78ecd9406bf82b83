import Qapi.Core.Agents
import Qapi.Core.Transactions
import Qapi.Subscription.Orders

/-!
# The purchase limit of a plan

The statements of the transactions that create a subscription: `CompleteSubscriptionOrder`,
which locks the row of the order, `PurchaseSubscriptionWithBalance`, which locks the row of
the user, and `AdminBindSubscription`, which locks nothing. Each connection runs one
transaction at a time. Every statement may fail, and then the transaction is rolled back.
Besides the two above, the update of the user's group takes the lock on the user's row.

The limit is a count followed by an insert. Two transactions that wait for no common lock
can both count before either commits, and then both insert.
-/

namespace Qapi.PurchaseLimit

open Qapi.Core Subscription Orders Function List Bool
open Wallet (TopUp PaymentProvider errPaymentMethodMismatch)

/-- A plan with the columns that a purchase by balance reads. -/
structure Offer extends Plan where
  enabled : Bool
  priceAmount : ℚ
  allowBalancePay : Option Bool
deriving DecidableEq, Repr

def Offer.planId (offer : Offer) : Int := offer.id

structure Config where
  location : Location
  quotaPerUnit : ℚ
  plans : Table Offer.planId

def Config.env (cfg : Config) (now : Int) : Env :=
  ⟨now, cfg.location, fun id => (cfg.plans.find? id).map Offer.toPlan, id⟩

structure Db extends Orders.Db where
  quotas : Int → Int

def Db.bought (db : Db) (userId planId : Int) : Nat :=
  (db.subscriptions.subs.rows.filter fun s => s.userId = userId && s.planId = planId).length

/-! ## Transactions -/

/-- The calls. `tradeNo` of a purchase by balance is the one it generates. -/
inductive Entry
  | completeOrder (tradeNo providerPayload : String) (expected : PaymentProvider)
      (actualPaymentMethod : String)
  | balance (userId planId : Int) (tradeNo : String)
  | bind (userId planId : Int)
deriving DecidableEq, Repr

/-- What a transaction still has to write after the subscription. -/
inductive Source
  | order (order : SubscriptionOrder) (providerPayload actualPaymentMethod : String)
  | balance (tradeNo : String) (requiredQuota : Int)
  | admin
deriving DecidableEq, Repr

structure Purchase (cfg : Config) where
  userId : Int
  offer : Offer
  known : offer ∈ cfg.plans
  source : Source

/-- A purchase that the count has let through, with the times computed after it. -/
structure Counted (cfg : Config) extends Purchase cfg where
  now : Int
  endUnix : Int

/-- Where a connection is in the code: each phase names the statement that comes next. -/
inductive Phase (cfg : Config)
  | idle
  | begun (entry : Entry)
  | charging (p : Purchase cfg) (requiredQuota : Int)
  | counting (p : Purchase cfg)
  | grouping (c : Counted cfg)
  | raising (c : Counted cfg) (prevGroup : String)
  | inserting (c : Counted cfg) (prevGroup : String)
  | mirroring (c : Counted cfg) (order : SubscriptionOrder)
      (providerPayload actualPaymentMethod : String)
  | recording (c : Counted cfg) (row : SubscriptionOrder) (fresh : Bool)
  | committing (c : Option (Counted cfg))

inductive Lock
  | order (tradeNo : String)
  | user (userId : Int)
deriving DecidableEq, Repr

structure Writes where
  charge : Option (Int × Int)
  group : Option (Int × String)
  sub : Option UserSubscription
  topUp : Option TopUp
  order : Option SubscriptionOrder

def Writes.none : Writes := ⟨.none, .none, .none, .none, .none⟩

def Phase.lock {cfg : Config} : Phase cfg → Option Lock
  | .begun (.completeOrder tradeNo _ _ _) => some (.order tradeNo)
  | .begun (.balance userId _ _) => some (.user userId)
  | .charging p _ => some (.user p.userId)
  | .raising c _ => some (.user c.userId)
  | _ => none

/-- What a statement finds outside the tables: the call that an idle connection starts with,
its error, the clock, and the id for a new row. -/
structure Input where
  call : Entry
  failed : Option Err
  now : Int
  newId : Int
deriving DecidableEq, Repr

def Input.issue (i : Input) : Except Err Unit :=
  match i.failed with
  | none => .ok ()
  | some e => .error e

/-! ## The statements -/

def getSubscriptionPlanById (cfg : Config) (i : Input) (id : Int) :
    Except Err { offer : Offer // offer ∈ cfg.plans } := do
  failIf (id ≤ 0) (.msg "invalid plan id")
  i.issue
  match h : cfg.plans.find? id with
  | some offer => pure ⟨offer, Table.mem_of_find? h⟩
  | none => throw recordNotFound

def calcSubscriptionBalanceQuota (quotaPerUnit priceAmount : ℚ) : Except Err Int :=
  if priceAmount ≤ 0 then .ok 0
  else if quotaPerUnit ≤ 0 then .error (.msg "额度单位配置错误")
  else .ok (priceAmount * quotaPerUnit).ceil

def balanceOrder {cfg : Config} (c : Counted cfg) (now : Int) (tradeNo : String)
    (requiredQuota : Int) : SubscriptionOrder where
  tradeNo := tradeNo
  userId := c.userId
  planId := c.offer.id
  money := c.offer.priceAmount
  paymentMethod := "balance"
  paymentProvider := .balance
  status := .success
  createTime := now
  completeTime := now
  providerPayload := "charged_quota=" ++ toString requiredQuota

def afterInsert {cfg : Config} (now : Int) (c : Counted cfg) : Phase cfg :=
  match c.source with
  | .order order payload method => .mirroring c order payload method
  | .balance tradeNo requiredQuota =>
    .recording c (balanceOrder c now tradeNo requiredQuota) true
  | .admin => .committing (some c)

/-- The record that mirrors an order, as `upsertSubscriptionTopUpTx` writes it. -/
def mirror (now : Int) (order : SubscriptionOrder) (db : Db) : Except Err TopUp :=
  match db.topUps.find? order.tradeNo with
  | none => .ok (mirrored now order)
  | some topUp => do
    failIf (topUp.paymentMethod ≠ "" ∧ topUp.paymentMethod ≠ order.paymentMethod)
      errPaymentMethodMismatch
    pure (refreshed now order topUp)

/-- The next statement of a transaction, with the checks that come before it; the table
refuses a second row with one id. Reading the plan is part of the statement that it precedes. -/
def statement {cfg : Config} (i : Input) (db : Db) (w : Writes) :
    Phase cfg → Except Err (Phase cfg × Writes)
  | .idle => .ok (.begun i.call, w)
  | .begun (.completeOrder tradeNo payload expected method) => do
    failIf (tradeNo = "") (.msg "tradeNo is empty")
    let order ← lockOrder ⟨fun _ => i.failed, fun _ => i.failed⟩ tradeNo db.toDb
    failIf (expected ≠ .unset ∧ order.paymentProvider ≠ expected) errPaymentMethodMismatch
    if order.status = .success then pure (.committing none, w)
    else
      failIf (order.status ≠ .pending) errSubscriptionOrderStatusInvalid
      let offer ← getSubscriptionPlanById cfg i order.planId
      pure (.counting ⟨order.userId, offer.1, offer.2, .order order payload method⟩, w)
  | .begun (.balance userId planId tradeNo) => do
    failIf (userId ≤ 0 ∨ planId ≤ 0) (.msg "invalid userId or planId")
    let offer ← getSubscriptionPlanById cfg i planId
    failIf (offer.1.enabled = false) (.msg "套餐未启用")
    failIf (offer.1.priceAmount < 0) (.msg "套餐价格不能为负数")
    failIf (offer.1.allowBalancePay = some false) (.msg "该套餐不允许使用余额兑换")
    let requiredQuota ← calcSubscriptionBalanceQuota cfg.quotaPerUnit offer.1.priceAmount
    i.issue
    failIf (requiredQuota > 0 ∧ db.quotas userId < requiredQuota) (.msg "余额不足")
    pure (.charging ⟨userId, offer.1, offer.2, .balance tradeNo requiredQuota⟩ requiredQuota, w)
  | .begun (.bind userId planId) => do
    failIf (userId ≤ 0 ∨ planId ≤ 0) (.msg "invalid userId or planId")
    let offer ← getSubscriptionPlanById cfg i planId
    pure (.counting ⟨userId, offer.1, offer.2, .admin⟩, w)
  | .charging p requiredQuota =>
    if requiredQuota > 0 then do
      i.issue
      pure (.counting p, { w with charge := some (p.userId, requiredQuota) })
    else .ok (.counting p, w)
  | .counting p => do
    failIf (p.offer.id = 0) (.msg "invalid plan")
    failIf (p.userId ≤ 0) (.msg "invalid user id")
    checkPurchaseLimit (fun _ => i.failed) p.userId p.offer.toPlan db.subscriptions
    let endUnix ← calcPlanEndTime cfg.location i.now p.offer.toPlan
    pure (.grouping ⟨p, i.now, endUnix⟩, w)
  | .grouping c =>
    if trimSpace c.offer.upgradeGroup = "" then .ok (.inserting c "", w)
    else do
      let currentGroup ← getUserGroupByIdTx (fun _ => i.failed) c.userId db.subscriptions
      if currentGroup = trimSpace c.offer.upgradeGroup then pure (.inserting c "", w)
      else pure (.raising c currentGroup, w)
  | .raising c prevGroup => do
    i.issue
    pure (.inserting c prevGroup,
      { w with group := some (c.userId, trimSpace c.offer.upgradeGroup) })
  | .inserting c prevGroup => do
    i.issue
    let sub := newSubscription (cfg.env c.now) i.newId c.userId c.endUnix c.offer.toPlan prevGroup
    pure (afterInsert i.now c, { w with sub := some sub })
  | .mirroring c order payload method => do
    i.issue
    let topUp ← mirror i.now order db
    pure (.recording c (order.complete i.now payload method) false, { w with topUp := some topUp })
  | .recording c row fresh => do
    i.issue
    failIf (fresh = true ∧ db.orders.find? row.tradeNo ≠ none) (.msg "UNIQUE constraint failed")
    pure (.committing (some c), { w with order := some row })
  | .committing c => do
    i.issue
    failIf (w.sub.any fun sub => (db.subscriptions.subs.find? sub.id).isSome)
      (.msg "UNIQUE constraint failed")
    pure (.committing c, w)

def exec {cfg : Config} (i : Input) (db : Db) (φ : Phase cfg) (w : Writes) :
    Core.Outcome (Phase cfg) Writes :=
  match φ, statement i db w φ with
  | _, .error _ => .rollback .idle
  | .committing _, .ok _ => .commit .idle
  | _, .ok (φ', w') => .next φ' w'

/-! ## The commit -/

/-- `INSERT`, or `UPDATE` of the row that is there. -/
def put {R K : Type} [DecidableEq K] {key : R → K} (t : Table key) (r : R) : Table key :=
  (t.create r).getD (t.save r)

def Writes.apply (w : Writes) (db : Db) : Db where
  orders := w.order.elim db.orders (put db.orders)
  topUps := w.topUp.elim db.topUps (put db.topUps)
  subscriptions :=
    { w.group.elim db.subscriptions fun g => db.subscriptions.setGroup g.1 g.2 with
      subs := w.sub.elim db.subscriptions.subs (put db.subscriptions.subs) }
  quotas := w.charge.elim db.quotas fun c =>
    update db.quotas c.1 (db.quotas c.1 - c.2)

def createSubscription (cfg : Config) : TxProgram Db (Phase cfg) Lock Writes Input where
  locks _ φ := φ.lock.toList
  exec := exec
  noWrites := .none
  apply db w := w.apply db

/-! ## What a statement can do -/

section

variable {cfg : Config}

/-- The purchase of a transaction that has counted and not ended. -/
def Phase.counted? : Phase cfg → Option (Counted cfg)
  | .grouping c | .raising c _ | .inserting c _ => some c
  | .mirroring c _ _ _ | .recording c _ _ => some c
  | .committing c => c
  | _ => none

/-- The transaction has counted for the user and the plan and not ended. -/
def Phase.buys (userId planId : Int) (φ : Phase cfg) : Bool :=
  φ.counted?.any fun c => c.userId = userId && c.offer.id = planId

theorem afterInsert_counted? (now : Int) (c : Counted cfg) :
    (afterInsert now c).counted? = some c := by
  unfold afterInsert
  split <;> rfl

/-- What a statement does to the purchase that has been counted and to the row that has been
written for it. -/
inductive Effect (db : Db) (w : Writes) (φ φ' : Phase cfg) (w' : Writes) : Prop
  | other (hCounted : φ'.counted? = φ.counted?) (hSub : w'.sub = w.sub)
  | count (c : Counted cfg) (hPhase : φ = .counting c.toPurchase) (hNext : φ' = .grouping c)
      (o : Subscription.Outcome)
      (hRoom : checkPurchaseLimit o c.userId c.offer.toPlan db.subscriptions = .ok ())
      (hSub : w'.sub = w.sub)
  | insert (c : Counted cfg) (hPhase : φ.counted? = some c) (hNext : φ'.counted? = some c)
      (sub : UserSubscription) (hUser : sub.userId = c.userId) (hPlan : sub.planId = c.offer.id)
      (hSub : w'.sub = some sub)

theorem statement_begun {i : Input} {db : Db} {w w' : Writes} {entry : Entry} {φ : Phase cfg}
    (h : statement i db w (.begun entry) = .ok (φ, w')) : Effect db w (.begun entry) φ w' := by
  cases entry with
  | completeOrder tradeNo payload expected method =>
    replace h := of_seq h
    obtain ⟨order, -, h⟩ := of_bind h
    replace h := of_seq h
    split at h
    · cases h
      exact .other rfl rfl
    · replace h := of_seq h
      obtain ⟨offer, -, h⟩ := of_bind h
      cases h
      exact .other rfl rfl
  | balance userId planId tradeNo =>
    replace h := of_seq h
    obtain ⟨offer, -, h⟩ := of_bind h
    replace h := of_seq h
    replace h := of_seq h
    replace h := of_seq h
    obtain ⟨requiredQuota, -, h⟩ := of_bind h
    replace h := of_seq h
    replace h := of_seq h
    cases h
    exact .other rfl rfl
  | bind userId planId =>
    replace h := of_seq h
    obtain ⟨offer, -, h⟩ := of_bind h
    cases h
    exact .other rfl rfl

theorem statement_effect {i : Input} {db : Db} {w w' : Writes} {φ φ' : Phase cfg}
    (h : statement i db w φ = .ok (φ', w')) : Effect db w φ φ' w' := by
  cases φ with
  | idle =>
    cases h
    exact .other rfl rfl
  | begun entry => exact statement_begun h
  | charging p requiredQuota =>
    dsimp only [statement] at h
    split at h
    · replace h := of_seq h
      cases h
      exact .other rfl rfl
    · cases h
      exact .other rfl rfl
  | counting p =>
    replace h := of_seq h
    replace h := of_seq h
    obtain ⟨_, hRoom, h⟩ := of_bind h
    obtain ⟨endUnix, -, h⟩ := of_bind h
    cases h
    exact .count ⟨p, i.now, endUnix⟩ rfl rfl _ hRoom rfl
  | grouping c =>
    dsimp only [statement] at h
    split at h
    · cases h
      exact .other rfl rfl
    · obtain ⟨currentGroup, -, h⟩ := of_bind h
      split at h
      all_goals
        cases h
        exact .other rfl rfl
  | raising c prevGroup =>
    replace h := of_seq h
    cases h
    exact .other rfl rfl
  | inserting c prevGroup =>
    replace h := of_seq h
    cases h
    exact .insert c rfl (afterInsert_counted? i.now c) _ rfl rfl rfl
  | mirroring c order payload method =>
    replace h := of_seq h
    obtain ⟨topUp, -, h⟩ := of_bind h
    cases h
    exact .other rfl rfl
  | recording c row fresh =>
    replace h := of_seq h
    replace h := of_seq h
    cases h
    exact .other rfl rfl
  | committing c =>
    replace h := of_seq h
    replace h := of_seq h
    cases h
    exact .other rfl rfl

theorem statement_of_next {i : Input} {db : Db} {w w' : Writes} {φ φ' : Phase cfg}
    (h : exec i db φ w = .next φ' w') : statement i db w φ = .ok (φ', w') := by
  unfold exec at h
  split at h
  · cases h
  · cases h
  · rename_i hStatement
    cases h
    exact hStatement

theorem of_commit {i : Input} {db : Db} {w : Writes} {φ φ' : Phase cfg}
    (h : exec i db φ w = .commit φ') :
    φ' = .idle ∧ ∀ sub ∈ w.sub, db.subscriptions.subs.find? sub.id = none := by
  unfold exec at h
  split at h
  · cases h
  · rename_i hStatement
    cases h
    refine ⟨rfl, ?_⟩
    replace hStatement := of_seq hStatement
    obtain ⟨_, hFresh, -⟩ := of_bind hStatement
    rw [failIf_eq_ok] at hFresh
    intro sub hSub
    rw [Option.mem_def.mp hSub] at hFresh
    simpa using hFresh
  · cases h

theorem rollback_idle {i : Input} {db : Db} {w : Writes} {φ φ' : Phase cfg}
    (h : exec i db φ w = .rollback φ') : φ' = .idle := by
  unfold exec at h
  split at h
  · cases h
    rfl
  · cases h
  · cases h

/-- The row that a transaction has written is for the purchase that it has counted. -/
def Written (_ : Db) (_ : Lock → Prop) (φ : Phase cfg) (w : Writes) : Prop :=
  ∀ sub ∈ w.sub, ∃ c, φ.counted? = some c ∧ sub.userId = c.userId ∧ sub.planId = c.offer.id

theorem written_noWrites (db : Db) (owned : Lock → Prop) (φ : Phase cfg) :
    Written db owned φ .none := by
  intro sub h
  cases h

theorem Effect.written {db : Db} {owned : Lock → Prop} {w w' : Writes} {φ φ' : Phase cfg}
    (h : Effect db w φ φ' w') (hw : Written db owned φ w) : Written db owned φ' w' := by
  cases h with
  | other hCounted hSub =>
    unfold Written
    rw [hCounted, hSub]
    exact hw
  | count c hPhase hNext o hRoom hSub =>
    intro sub h
    rw [hSub] at h
    obtain ⟨d, hd, -⟩ := hw sub h
    rw [hPhase] at hd
    cases hd
  | insert c hPhase hNext sub hUser hPlan hSub =>
    intro sub' h
    rw [hSub] at h
    cases h
    exact ⟨c, hNext, hUser, hPlan⟩

theorem bought_apply {owned : Lock → Prop} {w : Writes} {φ : Phase cfg} {db : Db}
    (hw : Written db owned φ w)
    (hFresh : ∀ sub ∈ w.sub, db.subscriptions.subs.find? sub.id = none) (userId planId : Int) :
    (w.apply db).bought userId planId ≤
      db.bought userId planId + (φ.buys userId planId).toNat := by
  cases hSub : w.sub with
  | none =>
    have hSubs : (w.apply db).subscriptions.subs = db.subscriptions.subs := by
      simp [Writes.apply, hSub]
    unfold Db.bought
    rw [hSubs]
    exact Nat.le_add_right _ _
  | some sub =>
    obtain ⟨c, hCounted, hUser, hPlan⟩ := hw sub hSub
    obtain ⟨subs, hSubs, -⟩ := Table.create_of_fresh (hFresh sub hSub)
    have hRows : (w.apply db).subscriptions.subs.rows = db.subscriptions.subs.rows ++ [sub] := by
      simp only [Writes.apply, hSub, Option.elim_some, put, hSubs, Option.getD_some]
      exact Table.rows_create hSubs
    have hBuys : φ.buys userId planId =
        (decide (sub.userId = userId) && decide (sub.planId = planId)) := by
      rw [Phase.buys, hCounted, hUser, hPlan]
      rfl
    unfold Db.bought
    rw [hRows, hBuys, filter_append, length_append]
    refine Nat.add_le_add_left ?_ _
    cases hSame : (decide (sub.userId = userId) && decide (sub.planId = planId)) <;>
      simp [hSame]

/-- A count that lets the purchase through has found room. -/
theorem checkPurchaseLimit_room {o : Subscription.Outcome} {userId : Int} {plan : Plan}
    {db : Subscription.Db} (hLimit : 0 < plan.maxPurchasePerUser)
    (h : checkPurchaseLimit o userId plan db = .ok ()) :
    ((db.subs.rows.filter fun s => s.userId = userId && s.planId = plan.id).length : Int) <
      plan.maxPurchasePerUser := by
  unfold checkPurchaseLimit at h
  rw [if_pos hLimit] at h
  replace h := of_seq h
  rw [failIf_eq_ok, ge_iff_le, not_le] at h
  exact h

end

/-! ## The limit -/

section

variable {cfg : Config} {T : Type} [Fintype T] [DecidableEq T]

/-- The other transactions that have counted for the user and the plan and not ended. -/
def racing (s : TxSystem T Db (Phase cfg) Lock Writes) (t : T) (userId planId : Int) : Nat :=
  (Finset.univ.filter fun v => v ≠ t ∧ (s.phase v).buys userId planId = true).card

/-- The count finds room, and would not if it saw the purchases that race with it. -/
def Overlooks (s : TxSystem T Db (Phase cfg) Lock Writes) (t : T) (p : Purchase cfg) : Prop :=
  (s.db.bought p.userId p.offer.id : Int) < p.offer.maxPurchasePerUser ∧
    p.offer.maxPurchasePerUser ≤
      s.db.bought p.userId p.offer.id + racing s t p.userId p.offer.id

instance (s : TxSystem T Db (Phase cfg) Lock Writes) (t : T) (p : Purchase cfg) :
    Decidable (Overlooks s t p) :=
  inferInstanceAs (Decidable (_ ∧ _))

def Phase.counting? : Phase cfg → Option (Purchase cfg)
  | .counting p => some p
  | _ => none

/-- The condition on a statement: a count for the user and the plan overlooks nothing. -/
def NoRace (userId planId : Int) (s : TxSystem T Db (Phase cfg) Lock Writes) (a : T × Input) :
    Prop :=
  ∀ p ∈ (s.phase a.1).counting?, p.userId = userId → p.offer.id = planId → ¬ Overlooks s a.1 p

instance (userId planId : Int) (s : TxSystem T Db (Phase cfg) Lock Writes) (a : T × Input) :
    Decidable (NoRace userId planId s a) :=
  inferInstanceAs (Decidable (∀ p ∈ (s.phase a.1).counting?, _))

/-- There is room for every purchase that has counted. -/
structure Inv (userId : Int) (offer : Offer) (s : TxSystem T Db (Phase cfg) Lock Writes) :
    Prop where
  written : ∀ t, TxProgram.At Written s t
  room : (s.db.bought userId offer.id : Int) + howMany (Phase.buys userId offer.id) s.phase ≤
    offer.maxPurchasePerUser

variable {userId : Int} {offer : Offer} {s : TxSystem T Db (Phase cfg) Lock Writes}

theorem howMany_le_racing {t : T} {p : Purchase cfg} (hPhase : s.phase t = .counting p)
    (userId planId : Int) :
    howMany (Phase.buys userId planId) s.phase ≤ racing s t userId planId := by
  apply Finset.card_le_card
  intro v hv
  have hBuys : (s.phase v).buys userId planId = true := (Finset.mem_filter.mp hv).2
  refine Finset.mem_filter.mpr ⟨Finset.mem_univ v, ?_, hBuys⟩
  rintro rfl
  rw [hPhase] at hBuys
  cases hBuys

theorem Inv.count (h : Inv userId offer s) (hOffer : offer ∈ cfg.plans)
    (hLimit : 0 < offer.maxPurchasePerUser) {t : T} {c : Counted cfg}
    (hPhase : s.phase t = .counting c.toPurchase) {o : Subscription.Outcome}
    (hRoom : checkPurchaseLimit o c.userId c.offer.toPlan s.db.subscriptions = .ok ())
    (hRace : c.userId = userId → c.offer.id = offer.id → ¬ Overlooks s t c.toPurchase) :
    (s.db.bought userId offer.id : Int) +
      howMany (Phase.buys userId offer.id) (update s.phase t (.grouping c)) ≤
        offer.maxPurchasePerUser := by
  have hUpdate := howMany_update (Phase.buys userId offer.id) s.phase t (.grouping c)
  have hBefore : (s.phase t).buys userId offer.id = false := by
    rw [hPhase]
    rfl
  rw [hBefore] at hUpdate
  have hOld := h.room
  by_cases hSame : c.userId = userId ∧ c.offer.id = offer.id
  · obtain ⟨hUser, hPlan⟩ := hSame
    have hEq : c.offer = offer := Table.eq_of_key c.known hOffer hPlan
    have hFound : (s.db.bought userId offer.id : Int) < offer.maxPurchasePerUser := by
      rw [hUser, hEq] at hRoom
      exact checkPurchaseLimit_room hLimit hRoom
    have hNone := hRace hUser hPlan
    unfold Overlooks at hNone
    rw [hUser, hEq] at hNone
    have hRacing := howMany_le_racing hPhase userId offer.id
    have hAfter : (Phase.grouping c).buys userId offer.id = true := by
      simp [Phase.buys, Phase.counted?, hUser, hEq]
    rw [hAfter] at hUpdate
    simp only [toNat_true, toNat_false] at hUpdate
    omega
  · have hAfter : (Phase.grouping c).buys userId offer.id = false := by
      simp only [Phase.buys, Phase.counted?, Option.any_some]
      simpa using hSame
    rw [hAfter] at hUpdate
    simp only [toNat_false] at hUpdate
    omega

theorem Inv.same (h : Inv userId offer s) {t : T} {φ : Phase cfg}
    (hCounted : φ.counted? = (s.phase t).counted?) :
    (s.db.bought userId offer.id : Int) +
      howMany (Phase.buys userId offer.id) (update s.phase t φ) ≤ offer.maxPurchasePerUser := by
  rw [howMany_update_of_eq (by simp only [Phase.buys, hCounted])]
  exact h.room

theorem Inv.step (h : Inv userId offer s) (hOffer : offer ∈ cfg.plans)
    (hLimit : 0 < offer.maxPurchasePerUser) {a : T × Input} (ha : NoRace userId offer.id s a) :
    Inv userId offer ((createSubscription cfg).step s a) := by
  -- a transaction that ends is no longer counted among those that buy
  have hEnd := howMany_update (Phase.buys userId offer.id) s.phase a.1 .idle
  rw [show (Phase.idle : Phase cfg).buys userId offer.id = false from rfl] at hEnd
  have hRoom := h.room
  rcases (createSubscription cfg).step_cases s a with
    hSame | ⟨-, ⟨φ, w, hExec, hStep⟩ | ⟨φ, hExec, hStep⟩ | ⟨φ, hExec, hStep⟩⟩
  · rw [hSame]
    exact h
  all_goals refine ⟨TxProgram.at_step h.written ?_ fun u _ hu => hu, ?_⟩
  all_goals rw [hStep]
  · unfold TxProgram.At
    simp only [update_self]
    exact (statement_effect (statement_of_next hExec)).written (h.written a.1)
  · cases statement_effect (statement_of_next hExec) with
    | other hCounted hSub => exact h.same hCounted
    | count c hPhase hNext o hCount hSub =>
      rw [hNext]
      refine h.count hOffer hLimit hPhase hCount (ha c.toPurchase ?_)
      rw [hPhase]
      rfl
    | insert c hPhase hNext sub hUser hPlan hSub => exact h.same (hNext.trans hPhase.symm)
  · unfold TxProgram.At
    simp only [update_self]
    exact written_noWrites _ _ _
  · simp only [rollback_idle hExec, toNat_false] at hEnd ⊢
    omega
  · unfold TxProgram.At
    simp only [update_self]
    exact written_noWrites _ _ _
  · obtain ⟨rfl, hFresh⟩ := of_commit hExec
    have hBought := bought_apply (h.written a.1) hFresh userId offer.id
    simp only [toNat_false] at hEnd
    change (((s.writes a.1).apply s.db).bought userId offer.id : Int) +
      howMany (Phase.buys userId offer.id) (update s.phase a.1 .idle) ≤ _
    omega

variable (cfg) in
/-- No connection has begun a transaction. -/
def atRest (db : Db) : TxSystem T Db (Phase cfg) Lock Writes :=
  ⟨db, fun _ => none, fun _ => .idle, fun _ => .none⟩

/-- In every interleaving in which no count for the user and the plan overlooks a purchase that
races with it, the number of subscriptions of the plan that the user has stays within the limit. -/
theorem purchases_within_limit (userId : Int) (hOffer : offer ∈ cfg.plans)
    (hLimit : 0 < offer.maxPurchasePerUser) {db : Db}
    (hRows : (db.bought userId offer.id : Int) ≤ offer.maxPurchasePerUser) {l : List (T × Input)}
    (hl : Guarded (createSubscription cfg).step (NoRace userId offer.id) (atRest cfg db) l) :
    ((run (createSubscription cfg).step (atRest cfg db) l).db.bought userId offer.id : Int) ≤
      offer.maxPurchasePerUser := by
  have hFirst : Inv userId offer (atRest cfg db : TxSystem T Db (Phase cfg) Lock Writes) := by
    refine ⟨fun t => written_noWrites _ _ _, ?_⟩
    rw [howMany_eq_zero fun _ => rfl]
    simpa [atRest] using hRows
  have hInv := hl.invariant (fun _ _ h ha => h.step hOffer hLimit ha) hFirst
  have hRoom := hInv.room
  omega

end

def oncePlan : Offer :=
  { monthPlan with maxPurchasePerUser := 1, enabled := true, priceAmount := 10,
                   allowBalancePay := none }

def onceConfig : Config := ⟨fixedZone 0, 500000, ⟨[oncePlan], by simp⟩⟩

def onceDb : Db where
  orders := ⟨[sampleOrder, { sampleOrder with tradeNo := "S2" }], by simp [sampleOrder]⟩
  topUps := .empty
  subscriptions := .initial fun _ => "default"
  quotas := fun _ => 20000000

/-- So many statements on a connection, from the start of the call on. -/
def statements (n : Nat) (t : Fin 2) (newId : Int) (call : Entry) : List (Fin 2 × Input) :=
  replicate n (t, ⟨call, none, 100000, newId⟩)

/-- A purchase by balance, a bind and an order one after another: the limit holds. -/
theorem one_by_one_within_limit :
    let l := statements 8 0 1 (.balance 1 1 "B1") ++ statements 3 1 2 (.bind 1 1) ++
      statements 3 0 3 (.completeOrder "S1" "" .stripe "")
    ((run (createSubscription onceConfig).step (atRest onceConfig onceDb) l).db.bought 1 1 : Int) ≤
      1 := by
  intro l
  have hOffer : oncePlan ∈ onceConfig.plans := mem_singleton.mpr rfl
  have hRows : (onceDb.bought 1 1 : Int) ≤ 1 := by decide
  have hl : Guarded (createSubscription onceConfig).step (NoRace 1 1)
      (atRest onceConfig onceDb) l := by
    decide +kernel
  exact purchases_within_limit 1 hOffer Int.one_pos hRows hl

/-- Two orders of one user: both count before either commits, and both get the plan. -/
theorem two_orders_exceed_limit :
    let first := fun n => statements n 0 1 (.completeOrder "S1" "" .stripe "")
    let second := fun n => statements n 1 2 (.completeOrder "S2" "" .stripe "")
    let l := first 3 ++ second 3 ++ first 5 ++ second 5
    oncePlan.maxPurchasePerUser = 1 ∧
      (run (createSubscription onceConfig).step (atRest onceConfig onceDb) l).db.bought 1 1 =
        2 := by
  decide

end Qapi.PurchaseLimit
