import Qapi.Core.Machine
import Qapi.Subscription.Admin

/-!
# The calls on the subscription tables and what they do to a row

`Call` lists the calls that write the subscription tables, each with the outside
data it reads and the outcome of its statements, and `step` performs one of them.
Every transaction is one step; a job that consists of several transactions is
also given as the steps it is made of, so that other calls can come between them.

`RowInvariant` is the list of the changes that a call can make to a row, of which
`UnchargedInvariant` has those that are neither a charge nor its return. `step_rows`
says that there are no others: a property that new rows have and that these changes
keep holds of every row of a reachable state.
-/

namespace Qapi.Subscription

open Qapi.Core Table List

inductive Call
  | create (env : Env) (o : Outcome) (newId userId : Int) (plan : Plan)
  | preConsume (env : Env) (o : Outcome) (requestId : String) (userId amount : Int)
  | postConsume (o : Outcome) (subId delta : Int)
  | refund (o : RefundOutcome) (requestId : String)
  | resetOne (env : Env) (o : Outcome) (plan : Plan) (subId : Int)
  | resetDue (env : Env) (o : Outcome) (each : Int → Outcome) (limit : Int)
  | adminResetUser (env : Env) (o : Outcome) (userId planId : Int) (advanceResetTime : Bool)
  | adminResetPlan (env : Env) (o : Outcome) (planId : Int) (advanceResetTime : Bool)
  | expireUser (o : Outcome) (now userId : Int)
  | expireDue (env : Env) (o : Outcome) (each : Int → Outcome) (limit : Int)
  | invalidate (env : Env) (o : Outcome) (subId : Int)
  | delete (env : Env) (o : Outcome) (subId : Int)

def purchase (env : Env) (o : Outcome) (newId userId : Int) (plan : Plan) (db : Db) :
    Except Err (UserSubscription × Db) := do
  let r ← createUserSubscriptionFromPlanTx env o newId userId plan db
  stmt o .commit
  pure r

def step (db : Db) : Call → Db
  | .create env o newId userId plan => (transact db (purchase env o newId userId plan db)).2
  | .preConsume env o requestId userId amount =>
    (transact db (preConsumeUserSubscription env o requestId userId amount db)).2
  | .postConsume o subId delta =>
    (transact db (postConsumeUserSubscriptionDelta o subId delta db)).2
  | .refund o requestId => (refundSubscriptionPreConsume o requestId db).2
  | .resetOne env o plan subId => (transact db (resetDueOne env o plan subId db)).2
  | .resetDue env o each limit => (resetDueSubscriptions env o each limit db).2
  | .adminResetUser env o userId planId advance =>
    (transact db (adminResetUserSubscriptionsByPlan env o userId planId advance db)).2
  | .adminResetPlan env o planId advance =>
    (transact db (adminResetPlanSubscriptions env o planId advance db)).2
  | .expireUser o now userId => (transact db (expireUserTx o now userId db)).2
  | .expireDue env o each limit => (expireDueSubscriptions env o each limit db).2
  | .invalidate env o subId => (transact db (adminInvalidateUserSubscription env o subId db)).2
  | .delete env o subId => (transact db (adminDeleteUserSubscription env o subId db)).2

/-- A plan of 100 units for a month, reset every day. -/
def monthPlan : Plan :=
  { id := 1
    title := "month"
    durationUnit := .month
    durationValue := 1
    customSeconds := 0
    allowWalletOverflow := none
    maxPurchasePerUser := 0
    upgradeGroup := ""
    downgradeGroup := ""
    totalAmount := 100
    quotaResetPeriod := "daily"
    quotaResetCustomSeconds := 0 }

/-- A server in UTC that knows the plan above. -/
def utcEnv (now : Int) : Env :=
  ⟨now, fixedZone 0, fun id => if id = 1 then some monthPlan else none, id⟩

def Db.initial (groups : Int → String) : Db := ⟨.empty, .empty, groups⟩

def purchased : Db :=
  step (.initial fun _ => "default") (.create (utcEnv 100000) .good 1 1 monthPlan)

/-! ## The changes of a row -/

/-- A property of rows that every change keeps which neither charges a row nor gives a
charge back. -/
structure UnchargedInvariant (P : UserSubscription → Prop) : Prop where
  lazy : ∀ s (d : DueReset), P s → P (d.row s)
  reset : ∀ env plan advance s, P s → P (resetRow env plan advance s)
  close : ∀ s status endTime, P s → P { s with status := status, endTime := endTime }

/-- A property of rows that every change of a row keeps. -/
structure RowInvariant (P : UserSubscription → Prop) : Prop extends UnchargedInvariant P where
  charge : ∀ s amount, 0 < amount → covers s amount = true → P s → P (charged s amount)
  adjust : ∀ s delta, (0 < s.amountTotal → usedAfter s.amountUsed delta ≤ s.amountTotal) →
    P s → P (adjusted s delta)

/-- The rows that the call may create have the property. -/
def Call.Creates (P : UserSubscription → Prop) : Call → Prop
  | .create env _ newId userId plan =>
    ∀ endUnix prev, P (newSubscription env newId userId endUnix plan prev)
  | _ => True

def Db.AllRows (P : UserSubscription → Prop) (db : Db) : Prop := ∀ s ∈ db.subs, P s

section

variable {P : UserSubscription → Prop}

variable {Q : UserSubscription → Prop} {db : Db}

theorem Db.AllRows.mono (h : db.AllRows P) (hPQ : ∀ s, P s → Q s) :
    db.AllRows Q := fun s hs => hPQ s (h s hs)

theorem Db.AllRows.save {s : UserSubscription} (h : db.AllRows P) (hs : P s) :
    (db.saveSub s).AllRows P := by
  intro t ht
  rcases eq_or_mem_of_mem_save ht with rfl | ht
  · exact hs
  · exact h t ht

variable {db' : Db}

theorem Db.AllRows.of_subs (hSubs : db'.subs = db.subs) (h : db.AllRows P) : db'.AllRows P := by
  intro s hs
  exact h s (hSubs ▸ hs)

theorem Db.AllRows.find {k : Int} {s : UserSubscription} (h : db.AllRows P)
    (hs : db.subs.find? k = some s) : P s :=
  h s (mem_of_find? hs)

theorem Db.AllRows.transact {α : Type} {x : Except Err (α × Db)} (hdb : db.AllRows P)
    (h : ∀ a db', x = .ok (a, db') → db'.AllRows P) : (transact db x).2.AllRows P :=
  transact_invariant (P := Db.AllRows P) hdb h

/-! ## Purchase, charge and refund -/

variable {env : Env} {o : Outcome} {userId : Int} {plan : Plan} {sub : UserSubscription}

theorem purchase_ok {newId : Int} (h : purchase env o newId userId plan db = .ok (sub, db')) :
    Purchased env o newId userId plan db sub db' := by
  obtain ⟨⟨sub', db₂⟩, hCreate, h⟩ := of_bind h
  replace h := of_seq h
  cases h
  exact createUserSubscriptionFromPlanTx_ok hCreate

theorem purchase_rows {newId : Int}
    (hFresh : ∀ endUnix prev, P (newSubscription env newId userId endUnix plan prev))
    (h : purchase env o newId userId plan db = .ok (sub, db')) (hdb : db.AllRows P) :
    db'.AllRows P := by
  have hPurchased := purchase_ok h
  obtain ⟨endUnix, prevGroup, -, -, hRow⟩ := hPurchased.row
  intro s hs
  rcases (mem_create hPurchased.created).mp hs with hNew | hOld
  · rw [hNew, hRow]
    exact hFresh _ _
  · exact hdb s hOld

variable {requestId : String}

/-- A pre-consume leaves every row alone, brings its reset up to date, or charges it
after that. -/
theorem preConsume_rows {amount : Int} {r : PreConsumeResult}
    (h : preConsumeUserSubscription env o requestId userId amount db = .ok (r, db'))
    (hKeep : ∀ s, P s → Q s) (hLazy : ∀ s (d : DueReset), P s → P (d.row s))
    (hCharge : ∀ s, 0 < amount → covers s amount = true → P s → Q (charged s amount))
    (hdb : db.AllRows P) : db'.AllRows Q := by
  obtain ⟨hAmount, ⟨_, _, -, -, -, -, rfl⟩ | ⟨-, passed, sub, rest, d, hl, hc⟩⟩ := preConsume_ok h
  · exact hdb.mono hKeep
  have hMem : ∀ s ∈ passed ++ sub :: rest, P s := by
    intro s hs
    exact hdb s (mem_activeSubs.mp (hl ▸ hs)).1
  have hSub : P sub := hMem sub (by simp)
  intro s hs
  have hs' := find?_of_mem hs
  by_cases hEq : s.id = sub.id
  · rw [hEq, hc.row] at hs'
    cases hs'
    exact hCharge _ hAmount hc.covered (hLazy _ _ hSub)
  by_cases hPassed : ∃ t ∈ passed, s.id = t.id
  · obtain ⟨t, ht, hst⟩ := hPassed
    obtain ⟨e, -, -, hRow⟩ := hc.passed_short t ht
    rw [hst, hRow] at hs'
    cases hs'
    exact hKeep _ (hLazy _ _ (hMem t (by simp [ht])))
  · rw [hc.others s.id hEq fun t ht hst => hPassed ⟨t, ht, hst⟩] at hs'
    exact hKeep _ (hdb.find hs')

variable {subId : Int}

theorem postConsume_rows {delta : Int} {u : Unit}
    (h : postConsumeUserSubscriptionDelta o subId delta db = .ok (u, db'))
    (hKeep : ∀ s, P s → Q s) (hAdjust : ∀ s, (0 < s.amountTotal → usedAfter s.amountUsed delta ≤
      s.amountTotal) → P s → Q (adjusted s delta)) (hdb : db.AllRows P) : db'.AllRows Q := by
  obtain ⟨-, rfl⟩ | ⟨sub, hSub, rfl, hTotal⟩ := postConsume_ok h
  · exact hdb.mono hKeep
  · exact (hdb.mono hKeep).save (hAdjust _ hTotal (hdb.find hSub))

theorem RowInvariant.preConsume (hP : RowInvariant P) {amount : Int} {r : PreConsumeResult}
    (h : preConsumeUserSubscription env o requestId userId amount db = .ok (r, db'))
    (hdb : db.AllRows P) : db'.AllRows P :=
  preConsume_rows h (fun _ hs => hs) hP.lazy (fun s => hP.charge s amount) hdb

theorem RowInvariant.postConsume (hP : RowInvariant P) {delta : Int} {u : Unit}
    (h : postConsumeUserSubscriptionDelta o subId delta db = .ok (u, db')) (hdb : db.AllRows P) :
    db'.AllRows P :=
  postConsume_rows h (fun _ hs => hs) (fun s => hP.adjust s delta) hdb

theorem refund_rows {o : RefundOutcome} (hAdjust : ∀ s delta, delta < 0 → (0 < s.amountTotal →
      usedAfter s.amountUsed delta ≤ s.amountTotal) → P s → P (adjusted s delta))
    (hdb : db.AllRows P) : (refundSubscriptionPreConsume o requestId db).2.AllRows P := by
  have hGives : ∀ r sub, GivesBack o requestId db r sub →
      (db.saveSub (adjusted sub (-r.preConsumed))).AllRows P := by
    intro r sub h
    have hNeg : -r.preConsumed < 0 := by
      have := h.pos
      omega
    exact hdb.save (hAdjust _ _ hNeg h.total (hdb.find h.row))
  rcases hRes : refundSubscriptionPreConsume o requestId db with ⟨res, db'⟩
  cases refund_cases hRes with
  | skip => exact hdb
  | empty => exact hdb
  | taken r sub h => exact hGives r sub h
  | late e r sub h => exact hGives r sub h

/-! ## Resets -/

theorem resetOne_rows (hP : UnchargedInvariant P) {done : Bool}
    (h : resetDueOne env o plan subId db = .ok (done, db')) (hdb : db.AllRows P) :
    db'.AllRows P := by
  rcases resetDueOne_ok h with ⟨-, rfl⟩ | ⟨-, locked, s, hLocked, hReset⟩
  · exact hdb
  · obtain rfl := key_of_find? hLocked
    obtain ⟨d, -, -, rfl⟩ := maybeReset_ok hLocked hReset
    exact hdb.save (hP.lazy _ _ (hdb.find hLocked))

theorem resetDueLoop_rows (hP : UnchargedInvariant P) {o : Int → Outcome}
    {l : List UserSubscription} {n : Nat} (hdb : db.AllRows P) :
    (resetDueLoop env o l n db).2.AllRows P := by
  induction l generalizing n db with
  | nil => exact hdb
  | cons s l ih =>
    unfold resetDueLoop
    split
    · exact ih hdb
    · rename_i plan _
      have hOne : (transact db (resetDueOne env (o s.id) plan s.id db)).2.AllRows P :=
        hdb.transact fun _ _ h => resetOne_rows hP h hdb
      split
      · rename_i db' hTx
        rw [hTx] at hOne
        exact hOne
      · rename_i done db' hTx
        rw [hTx] at hOne
        exact ih hOne

theorem resetDue_rows (hP : UnchargedInvariant P) {each : Int → Outcome} {limit : Int}
    (hdb : db.AllRows P) : (resetDueSubscriptions env o each limit db).2.AllRows P := by
  unfold resetDueSubscriptions
  split
  · exact hdb
  · exact resetDueLoop_rows hP hdb

theorem resetAll_rows (hP : UnchargedInvariant P) {advance : Bool} {l : List UserSubscription}
    (hl : ∀ s ∈ l, P s) (h : resetAll env o plan advance l db = .ok db') (hdb : db.AllRows P) :
    db'.AllRows P := by
  induction l generalizing db with
  | nil =>
    cases h
    exact hdb
  | cons s l ih =>
    replace h := of_seq h
    have hs : P (resetRow env plan advance s) := hP.reset _ _ _ _ (hl s mem_cons_self)
    exact ih (fun t ht => hl t (mem_cons_of_mem _ ht)) h (hdb.save hs)

theorem adminResetUser_rows (hP : UnchargedInvariant P) {planId : Int} {advance : Bool}
    {r : ResetResult}
    (h : adminResetUserSubscriptionsByPlan env o userId planId advance db = .ok (r, db'))
    (hdb : db.AllRows P) : db'.AllRows P := by
  obtain ⟨plan, hReset, -⟩ := adminResetUserSubscriptionsByPlan_ok h
  refine resetAll_rows hP ?_ hReset hdb
  intro s hs
  exact hdb s (mem_activeSubs.mp (mem_filter.mp hs).1).1

theorem adminResetPlan_rows (hP : UnchargedInvariant P) {planId : Int} {advance : Bool}
    {r : ResetResult} (h : adminResetPlanSubscriptions env o planId advance db = .ok (r, db'))
    (hdb : db.AllRows P) : db'.AllRows P := by
  obtain ⟨plan, hReset, -⟩ := adminResetPlanSubscriptions_ok h
  refine resetAll_rows hP ?_ hReset hdb
  intro s hs
  exact hdb s (mem_filter.mp ((mem_insertionSort _).mp hs)).1

/-! ## Expiry, invalidation and deletion -/

theorem expireGroupTx_subs {now : Int} (h : expireGroupTx o now userId db = .ok db') :
    db'.subs = db.subs := by
  unfold expireGroupTx at h
  split at h
  · cases h
    rfl
  split at h
  · obtain ⟨current, -, h⟩ := of_bind h
    split at h
    · cases h
      rfl
    · replace h := of_seq h
      cases h
      rfl
  · cases h
    rfl

theorem expireUser_rows (hP : UnchargedInvariant P) {now : Int} {u : Unit}
    (h : expireUserTx o now userId db = .ok (u, db')) (hdb : db.AllRows P) : db'.AllRows P := by
  replace h := of_seq h
  obtain ⟨db₁, hGroup, h⟩ := of_bind h
  replace h := of_seq h
  cases h
  refine Db.AllRows.of_subs (expireGroupTx_subs hGroup) ?_
  intro s hs
  rw [expireRows, mem_modify] at hs
  obtain ⟨t, ht, rfl⟩ := hs
  split
  · exact hP.close t .expired t.endTime (hdb t ht)
  · exact hdb t ht

theorem expireLoop_rows (hP : UnchargedInvariant P) {o : Int → Outcome} {now : Int}
    {l : List Int} {n : Nat} (hdb : db.AllRows P) : (expireLoop o now l n db).2.AllRows P := by
  induction l generalizing n db with
  | nil => exact hdb
  | cons u l ih =>
    have hOne : (transact db (expireUserTx (o u) now u db)).2.AllRows P :=
      hdb.transact fun _ _ h => expireUser_rows hP h hdb
    unfold expireLoop
    dsimp only
    split
    · rename_i db' hTx
      rw [hTx] at hOne
      exact hOne
    · rename_i db' hTx
      rw [hTx] at hOne
      exact ih hOne

theorem expireDue_rows (hP : UnchargedInvariant P) {each : Int → Outcome} {limit : Int}
    (hdb : db.AllRows P) : (expireDueSubscriptions env o each limit db).2.AllRows P := by
  unfold expireDueSubscriptions
  split
  · exact hdb
  · exact expireLoop_rows hP hdb

theorem downgradeUserGroup_subs {now : Int} {g : String}
    (h : downgradeUserGroupForSubscriptionTx o now sub db = .ok (g, db')) : db'.subs = db.subs := by
  unfold downgradeUserGroupForSubscriptionTx at h
  split at h
  · cases h
    rfl
  obtain ⟨current, -, h⟩ := of_bind h
  split at h
  · cases h
    rfl
  split at h
  · cases h
    rfl
  · replace h := of_seq h
    cases h
    rfl

theorem invalidate_rows (hP : UnchargedInvariant P) {g : String}
    (h : adminInvalidateUserSubscription env o subId db = .ok (g, db')) (hdb : db.AllRows P) :
    db'.AllRows P := by
  replace h := of_seq h
  replace h := of_seq h
  obtain ⟨sub, hSub, h⟩ := of_bind h
  replace h := of_seq h
  obtain ⟨⟨g', db₁⟩, hGroup, h⟩ := of_bind h
  replace h := of_seq h
  cases h
  refine Db.AllRows.of_subs (downgradeUserGroup_subs hGroup) (hdb.save ?_)
  exact hP.close sub .cancelled env.now (hdb.find (found_eq_ok.mp hSub))

theorem delete_rows {g : String} (h : adminDeleteUserSubscription env o subId db = .ok (g, db'))
    (hdb : db.AllRows P) : db'.AllRows P := by
  replace h := of_seq h
  replace h := of_seq h
  obtain ⟨sub, -, h⟩ := of_bind h
  obtain ⟨⟨g', db₁⟩, hGroup, h⟩ := of_bind h
  replace h := of_seq h
  replace h := of_seq h
  cases h
  intro s hs
  have hs₁ : s ∈ db₁.subs := (mem_delete.mp hs).1
  exact hdb s (downgradeUserGroup_subs hGroup ▸ hs₁)

/-! ## One call and a run of calls -/

def Call.charges : Call → Bool
  | .preConsume .. | .postConsume .. | .refund .. => true
  | _ => false

theorem step_uncharged_rows (hP : UnchargedInvariant P) (hdb : db.AllRows P) {c : Call}
    (hFresh : c.Creates P) (hc : c.charges = false) : (step db c).AllRows P := by
  cases c with
  | create => exact hdb.transact fun _ _ h => purchase_rows hFresh h hdb
  | preConsume => cases hc
  | postConsume => cases hc
  | refund => cases hc
  | resetOne => exact hdb.transact fun _ _ h => resetOne_rows hP h hdb
  | resetDue => exact resetDue_rows hP hdb
  | adminResetUser => exact hdb.transact fun _ _ h => adminResetUser_rows hP h hdb
  | adminResetPlan => exact hdb.transact fun _ _ h => adminResetPlan_rows hP h hdb
  | expireUser => exact hdb.transact fun _ _ h => expireUser_rows hP h hdb
  | expireDue => exact expireDue_rows hP hdb
  | invalidate => exact hdb.transact fun _ _ h => invalidate_rows hP h hdb
  | delete => exact hdb.transact fun _ _ h => delete_rows h hdb

theorem step_rows (hP : RowInvariant P) (hdb : db.AllRows P) {c : Call} (hFresh : c.Creates P) :
    (step db c).AllRows P := by
  cases hc : c.charges with
  | false => exact step_uncharged_rows hP.toUnchargedInvariant hdb hFresh hc
  | true =>
    cases c with
    | preConsume => exact hdb.transact fun _ _ h => hP.preConsume h hdb
    | postConsume => exact hdb.transact fun _ _ h => hP.postConsume h hdb
    | refund => exact refund_rows (fun s delta _ => hP.adjust s delta) hdb
    | _ => cases hc

theorem run_rows (hP : RowInvariant P) (hFresh : ∀ c : Call, c.Creates P) (hdb : db.AllRows P)
    (l : List Call) : (run step db l).AllRows P :=
  run_invariant (I := Db.AllRows P) (fun _ c h => step_rows hP h (hFresh c)) hdb l

end

end Qapi.Subscription
