import Qapi.Core.Machine
import Qapi.Wallet.TopUp

/-!
# An order is credited once

Any interleaving of the transactions on one trade number. An order leaves `pending`
at most once, and only the transaction that completes it adds to a quota, so it is
credited at most once, and to its owner. The amount, however, depends on who completes
it: a manual completion computes the quota of every order but a Stripe one from the
amount as if it were money, and rounds, while `RechargeCreem` adds the amount itself and
`Recharge` does not round. `ManualAgrees` says for which orders that is the same.
-/

namespace Qapi.Wallet

open Qapi.Core

inductive Call
  | updatePending (expected : PaymentProvider) (targetStatus : TopUpStatus) (o : Outcome)
  | recharge (customerId : String) (now : Int) (o : Outcome)
  | rechargeCreem (customerEmail : String) (now : Int) (o : Outcome)
  | rechargeWaffo (now : Int) (o : Outcome)
  | rechargeWaffoPancake (now : Int) (o : Outcome)
  | manualComplete (now : Int) (o : Outcome)

structure State where
  db : Db
  credits : List Credit

section

variable (quotaPerUnit : ℚ) (tradeNo : String)

/-- The call on the trade number: what it adds and the tables, or its error. -/
def Call.exec (db : Db) : Call → Except Err (Option Credit × Db)
  | .updatePending expected targetStatus o => do
    let db ← updatePendingTopUpStatus o tradeNo expected targetStatus db
    pure (none, db)
  | .recharge customerId now o => Wallet.recharge quotaPerUnit o now tradeNo customerId db
  | .rechargeCreem customerEmail now o => Wallet.rechargeCreem o now tradeNo customerEmail db
  | .rechargeWaffo now o => Wallet.rechargeWaffo quotaPerUnit o now tradeNo db
  | .rechargeWaffoPancake now o => Wallet.rechargeWaffoPancake quotaPerUnit o now tradeNo db
  | .manualComplete now o => manualCompleteTopUp quotaPerUnit o now tradeNo db

def step (s : State) (c : Call) : State :=
  match c.exec quotaPerUnit tradeNo s.db with
  | .ok (credit, db) => ⟨db, credit.toList ++ s.credits⟩
  | .error _ => s

end

/-! ## What a call can do -/

def gatewayQuota (quotaPerUnit : ℚ) (t : TopUp) : ℚ :=
  match t.paymentProvider with
  | .stripe => t.money * quotaPerUnit
  | .creem => t.amount
  | _ => amountQuota quotaPerUnit t

/-- What a call can do to the order: nothing, set the status of the pending order, or complete it
and credit its owner, with the quota of its gateway or that of a manual completion. -/
inductive Effect (quotaPerUnit : ℚ) (tradeNo : String) (s : State) (c : Call) : State → Prop
  | nothing : Effect quotaPerUnit tradeNo s c s
  | status (t : TopUp) (hFind : s.db.orders.find? tradeNo = some t) (hPending : t.status = .pending)
      (targetStatus : TopUpStatus) :
      Effect quotaPerUnit tradeNo s c
        ⟨s.db.saveTopUp { t with status := targetStatus }, s.credits⟩
  | complete (t : TopUp) (hFind : s.db.orders.find? tradeNo = some t)
      (hPending : t.status = .pending) (m : Completion) (now : Int)
      (hQuota : m.quota t = gatewayQuota quotaPerUnit t ∨
        ((∃ o, c = .manualComplete now o) ∧ m.quota t = manualQuota quotaPerUnit t ∧
          0 < manualQuota quotaPerUnit t)) :
      Effect quotaPerUnit tradeNo s c
        ⟨s.db.complete m now t, (s.db.credited t.userId (m.quota t)).toList ++ s.credits⟩

section

variable {quotaPerUnit : ℚ} {tradeNo : String} {s : State}

theorem effect_completeTx {c : Call} {o : Outcome} {m : Completion} {now : Int} {db : Db}
    {credit : Option Credit} (h : completeTx o m now tradeNo s.db = .ok (credit, db))
    (hQuota : ∀ t, t.status = .pending → (m.provider = none ∨ m.provider = some t.paymentProvider) →
      (m.checksQuota = true → 0 < m.quota t) →
      m.quota t = gatewayQuota quotaPerUnit t ∨
        ((∃ o, c = .manualComplete now o) ∧ m.quota t = manualQuota quotaPerUnit t ∧
          0 < manualQuota quotaPerUnit t)) :
    Effect quotaPerUnit tradeNo s c ⟨db, credit.toList ++ s.credits⟩ := by
  rcases completeTx_ok h with ⟨hNone, hDb⟩ | ⟨t, hFind, hPending, hProvider, hPositive, hCredit, hDb⟩
  · rw [hNone, hDb]
    exact .nothing
  · rw [hCredit, hDb]
    exact .complete t hFind hPending m now (hQuota t hPending hProvider hPositive)

theorem effect_gateway (provider : PaymentProvider) {c : Call} {o : Outcome} {m : Completion}
    {now : Int} {db : Db} {credit : Option Credit}
    (h : gatewayRecharge o m now tradeNo s.db = .ok (credit, db)) (hm : m.provider = some provider)
    (hQuota : ∀ t, t.paymentProvider = provider → m.quota t = gatewayQuota quotaPerUnit t) :
    Effect quotaPerUnit tradeNo s c ⟨db, credit.toList ++ s.credits⟩ := by
  refine effect_completeTx (gatewayRecharge_ok h) ?_
  intro t _ hProvider _
  left
  apply hQuota
  rw [hm] at hProvider
  rcases hProvider with hNone | hSome
  · cases hNone
  · exact (Option.some.inj hSome).symm

theorem step_effect (quotaPerUnit : ℚ) (tradeNo : String) (s : State) (c : Call) :
    Effect quotaPerUnit tradeNo s c (step quotaPerUnit tradeNo s c) := by
  unfold step
  split
  · rename_i credit db hExec
    cases c with
    | updatePending expected targetStatus o =>
      obtain ⟨db', hUpdate, hExec⟩ := of_bind hExec
      replace hUpdate := of_seq hUpdate
      obtain ⟨t, hFind, hUpdate⟩ := of_bind hUpdate
      replace hUpdate := of_seq hUpdate
      obtain ⟨_, hPending, hUpdate⟩ := of_bind hUpdate
      replace hUpdate := of_seq hUpdate
      replace hUpdate := of_seq hUpdate
      cases hUpdate
      cases hExec
      rw [failIf_eq_ok, not_not] at hPending
      exact .status t (lockTopUp_ok hFind) hPending targetStatus
    | recharge customerId now o =>
      refine effect_gateway .stripe hExec rfl ?_
      intro t ht
      simp [rechargeCompletion, gatewayQuota, ht]
    | rechargeCreem customerEmail now o =>
      refine effect_gateway .creem hExec rfl ?_
      intro t ht
      simp [rechargeCreemCompletion, gatewayQuota, ht]
    | rechargeWaffo now o =>
      refine effect_gateway .waffo hExec rfl ?_
      intro t ht
      simp [waffoCompletion, gatewayQuota, ht]
    | rechargeWaffoPancake now o =>
      refine effect_gateway .waffoPancake hExec rfl ?_
      intro t ht
      simp [waffoCompletion, gatewayQuota, ht]
    | manualComplete now o =>
      refine effect_completeTx (manualCompleteTopUp_ok hExec) ?_
      intro t _ _ hPositive
      exact Or.inr ⟨⟨o, rfl⟩, rfl, Int.cast_pos.mp (hPositive rfl)⟩
  · exact .nothing

theorem step_of_not_pending {t : TopUp} (hFind : s.db.orders.find? tradeNo = some t)
    (hStatus : t.status ≠ .pending) (c : Call) : step quotaPerUnit tradeNo s c = s := by
  have hEffect := step_effect quotaPerUnit tradeNo s c
  generalize step quotaPerUnit tradeNo s c = s' at hEffect
  cases hEffect with
  | nothing => rfl
  | status t' hFind' hPending targetStatus | complete t' hFind' hPending m now hQuota =>
    rw [hFind] at hFind'
    cases hFind'
    exact absurd hPending hStatus

theorem run_of_not_pending {t : TopUp} (hFind : s.db.orders.find? tradeNo = some t)
    (hStatus : t.status ≠ .pending) (l : List Call) : run (step quotaPerUnit tradeNo) s l = s := by
  induction l with
  | nil => rfl
  | cons c l ih => rw [run_cons, step_of_not_pending hFind hStatus, ih]

end

/-! ## Credited once, to the owner -/

/-- What no call changes about an order. -/
structure TopUp.SameOrder (t u : TopUp) : Prop where
  userId : t.userId = u.userId
  amount : t.amount = u.amount
  money : t.money = u.money
  provider : t.paymentProvider = u.paymentProvider

def creditedTo (credits : List Credit) (userId : Int) : ℚ :=
  ((credits.filter fun c => c.userId = userId).map (·.amount)).sum

/-- The order `t` has been credited at most once, to its owner and only if it is completed, and
the quotas differ from those in `quotas` by what has been credited. -/
structure Inv (tradeNo : String) (t : TopUp) (quotas : Int → ℚ) (s : State) : Prop where
  order : ∃ u, s.db.orders.find? tradeNo = some u ∧ u.SameOrder t ∧
    (s.credits ≠ [] → u.status = .success)
  credits : s.credits = [] ∨ ∃ amount, s.credits = [⟨t.userId, amount⟩]
  quotas : ∀ userId, s.db.quota userId = quotas userId + creditedTo s.credits userId

section

variable {quotaPerUnit : ℚ} {tradeNo : String} {t : TopUp} {quotas : Int → ℚ} {s s' : State}

theorem Inv.initial (hFind : s.db.orders.find? tradeNo = some t) (hFresh : s.credits = []) :
    Inv tradeNo t s.db.quota s where
  order := ⟨t, hFind, ⟨rfl, rfl, rfl, rfl⟩, fun h => absurd hFresh h⟩
  credits := Or.inl hFresh
  quotas userId := by simp [hFresh, creditedTo]

theorem Inv.uncredited (h : Inv tradeNo t quotas s) {u : TopUp}
    (hFind : s.db.orders.find? tradeNo = some u) (hPending : u.status = .pending) :
    s.credits = [] := by
  obtain ⟨u', hFind', -, hSuccess⟩ := h.order
  rw [hFind] at hFind'
  cases hFind'
  by_contra hCredited
  rw [hPending] at hSuccess
  cases hSuccess hCredited

theorem Inv.sameOrder (h : Inv tradeNo t quotas s) {u : TopUp}
    (hFind : s.db.orders.find? tradeNo = some u) : u.SameOrder t := by
  obtain ⟨u', hFind', hSame, -⟩ := h.order
  rw [hFind] at hFind'
  cases hFind'
  exact hSame

theorem Inv.status (h : Inv tradeNo t quotas s) {u : TopUp}
    (hFind : s.db.orders.find? tradeNo = some u) (hPending : u.status = .pending)
    (targetStatus : TopUpStatus) :
    Inv tradeNo t quotas ⟨s.db.saveTopUp { u with status := targetStatus }, s.credits⟩ := by
  have hNone : s.credits = [] := h.uncredited hFind hPending
  have hSame : u.SameOrder t := h.sameOrder hFind
  have hKey : u.tradeNo = tradeNo := Table.key_of_find? hFind
  refine ⟨⟨{ u with status := targetStatus }, ?_, ?_, fun hSome => absurd hNone hSome⟩, h.credits,
    h.quotas⟩
  · exact Table.find?_save_self hKey hFind
  · exact ⟨hSame.userId, hSame.amount, hSame.money, hSame.provider⟩

theorem quota_updateUser (db : Db) {userId : Int} {amount : ℚ} {f : User → User}
    (hf : ∀ u, (f u).quota = u.quota + amount) (v : Int) :
    (db.updateUser userId f).quota v =
      db.quota v + creditedTo (db.credited userId amount).toList v := by
  by_cases hv : v = userId
  · subst hv
    cases hUser : db.users v with
    | none => simp [Db.updateUser, Db.quota, Db.credited, creditedTo, hUser]
    | some u => simp [Db.updateUser, Db.quota, Db.credited, creditedTo, hUser, hf]
  · rcases db.credited_cases userId amount with ⟨-, hCredit⟩ | ⟨-, hCredit⟩
    · simp [Db.updateUser, Db.quota, hCredit, creditedTo, hv]
    · simp [Db.updateUser, Db.quota, hCredit, creditedTo, hv, Ne.symm hv]

theorem quotas_credited {db : Db} {credits : List Credit}
    (h : ∀ u, db.quota u = quotas u + creditedTo credits u) {userId : Int}
    {amount : ℚ} {f : User → User} (hf : ∀ u, (f u).quota = u.quota + amount) (u : Int) :
    (db.updateUser userId f).quota u =
      quotas u + creditedTo ((db.credited userId amount).toList ++ credits) u := by
  have hBoth : creditedTo ((db.credited userId amount).toList ++ credits) u =
      creditedTo (db.credited userId amount).toList u + creditedTo credits u := by
    simp [creditedTo]
  rw [quota_updateUser db hf, hBoth, h]
  ring

theorem quotas_completed {db : Db} {credits : List Credit}
    (h : ∀ u, db.quota u = quotas u + creditedTo credits u) (m : Completion) (now : Int) (u : TopUp)
    (v : Int) : (db.complete m now u).quota v =
      quotas v + creditedTo ((db.credited u.userId (m.quota u)).toList ++ credits) v := by
  have hBefore : ∀ v, (db.saveTopUp (u.complete now)).quota v = quotas v + creditedTo credits v := h
  exact quotas_credited (f := fun v => { m.fields v with quota := v.quota + m.quota u }) hBefore
    (fun _ => rfl) v

theorem Inv.complete (h : Inv tradeNo t quotas s) {u : TopUp}
    (hFind : s.db.orders.find? tradeNo = some u) (hPending : u.status = .pending) (m : Completion)
    (now : Int) :
    Inv tradeNo t quotas
      ⟨s.db.complete m now u, (s.db.credited u.userId (m.quota u)).toList ++ s.credits⟩ := by
  have hNone : s.credits = [] := h.uncredited hFind hPending
  have hSame : u.SameOrder t := h.sameOrder hFind
  have hKey : u.tradeNo = tradeNo := Table.key_of_find? hFind
  refine ⟨⟨u.complete now, ?_, ?_, fun _ => rfl⟩, ?_, ?_⟩
  · exact Table.find?_save_self hKey hFind
  · exact ⟨hSame.userId, hSame.amount, hSame.money, hSame.provider⟩
  · rcases s.db.credited_cases u.userId (m.quota u) with ⟨-, hCredit⟩ | ⟨-, hCredit⟩
    · rw [hCredit, hNone]
      exact Or.inl rfl
    · rw [hCredit, hNone, hSame.userId]
      exact Or.inr ⟨m.quota u, rfl⟩
  · exact quotas_completed h.quotas m now u

theorem Inv.step (h : Inv tradeNo t quotas s) (c : Call) :
    Inv tradeNo t quotas (Wallet.step quotaPerUnit tradeNo s c) := by
  have hEffect := step_effect quotaPerUnit tradeNo s c
  generalize Wallet.step quotaPerUnit tradeNo s c = s' at hEffect
  cases hEffect with
  | nothing => exact h
  | status u hFind hPending targetStatus => exact h.status hFind hPending targetStatus
  | complete u hFind hPending m now hQuota => exact h.complete hFind hPending m now

end

/-! ## The amount -/

/-- For which orders a manual completion adds the quota of the gateway, or nothing: the product of
money and quota per unit of a Stripe order is whole, and the product of amount and quota per unit
of a Creem order rounds down to the amount. -/
def ManualAgrees (quotaPerUnit : ℚ) (t : TopUp) : Prop :=
  (t.paymentProvider = .stripe →
    moneyQuota quotaPerUnit t ≤ 0 ∨ (t.money * quotaPerUnit).den = 1) ∧
  (t.paymentProvider = .creem → amountQuota quotaPerUnit t ≤ 0 ∨
    (t.amount ≤ t.amount * quotaPerUnit ∧ t.amount * quotaPerUnit < t.amount + 1))

instance (quotaPerUnit : ℚ) (t : TopUp) : Decidable (ManualAgrees quotaPerUnit t) :=
  inferInstanceAs (Decidable ((_ → _ ∨ _) ∧ (_ → _ ∨ (_ ∧ _))))

theorem manualQuota_eq_gatewayQuota_iff {quotaPerUnit : ℚ} {t : TopUp}
    (h : 0 < manualQuota quotaPerUnit t) :
    (manualQuota quotaPerUnit t : ℚ) = gatewayQuota quotaPerUnit t ↔
      ManualAgrees quotaPerUnit t := by
  cases hProvider : t.paymentProvider with
  | stripe =>
    have hManual : manualQuota quotaPerUnit t = moneyQuota quotaPerUnit t := if_pos hProvider
    rw [hManual] at h ⊢
    simp only [gatewayQuota, ManualAgrees, hProvider, not_le.mpr h, false_or, forall_const,
      reduceCtorEq, false_implies, and_true]
    exact truncate_eq_self_iff _
  | creem =>
    have hManual : manualQuota quotaPerUnit t = amountQuota quotaPerUnit t :=
      if_neg (by rw [hProvider]; decide)
    rw [hManual] at h ⊢
    simp only [gatewayQuota, ManualAgrees, hProvider, not_le.mpr h, false_or, forall_const,
      reduceCtorEq, false_implies, true_and]
    rw [Int.cast_inj]
    exact truncate_eq_iff_of_pos h t.amount
  | _ => simp [gatewayQuota, ManualAgrees, manualQuota, hProvider]

theorem gatewayQuota_congr (quotaPerUnit : ℚ) {t u : TopUp} (h : u.SameOrder t) :
    gatewayQuota quotaPerUnit u = gatewayQuota quotaPerUnit t := by
  simp only [gatewayQuota, amountQuota, h.provider, h.amount, h.money]

/-- The condition on a call: the order that is completed by hand is one for which that makes no
difference. -/
def AsGateway (quotaPerUnit : ℚ) (tradeNo : String) (s : State) : Call → Prop
  | .manualComplete _ _ => ∀ t ∈ s.db.orders.find? tradeNo, t.status = .pending →
      ManualAgrees quotaPerUnit t
  | _ => True

instance (quotaPerUnit : ℚ) (tradeNo : String) (s : State) :
    ∀ c, Decidable (AsGateway quotaPerUnit tradeNo s c)
  | .manualComplete _ _ => inferInstanceAs (Decidable (∀ t ∈ s.db.orders.find? tradeNo, _ → _))
  | .updatePending _ _ _ => inferInstanceAs (Decidable True)
  | .recharge _ _ _ => inferInstanceAs (Decidable True)
  | .rechargeCreem _ _ _ => inferInstanceAs (Decidable True)
  | .rechargeWaffo _ _ => inferInstanceAs (Decidable True)
  | .rechargeWaffoPancake _ _ => inferInstanceAs (Decidable True)

/-- A call that meets the condition adds the quota of the gateway. -/
theorem amount_step {quotaPerUnit : ℚ} {tradeNo : String} {t : TopUp} {quotas : Int → ℚ}
    {s : State} {c : Call} (h : Inv tradeNo t quotas s)
    (hAmounts : ∀ x ∈ s.credits, x.amount = gatewayQuota quotaPerUnit t)
    (hCall : AsGateway quotaPerUnit tradeNo s c) :
    ∀ x ∈ (step quotaPerUnit tradeNo s c).credits, x.amount = gatewayQuota quotaPerUnit t := by
  have hEffect := step_effect quotaPerUnit tradeNo s c
  generalize step quotaPerUnit tradeNo s c = s' at hEffect
  cases hEffect with
  | nothing => exact hAmounts
  | status u hFind hPending targetStatus => exact hAmounts
  | complete u hFind hPending m now hQuota =>
    intro x hx
    rcases List.mem_append.mp hx with hNew | hOld
    · have hGateway : m.quota u = gatewayQuota quotaPerUnit u := by
        rcases hQuota with hSame | ⟨⟨o, hc⟩, hManual, hPositive⟩
        · exact hSame
        · subst hc
          rw [hManual]
          exact (manualQuota_eq_gatewayQuota_iff hPositive).mpr (hCall u hFind hPending)
      have hAmount : x.amount = m.quota u := by
        rcases s.db.credited_cases u.userId (m.quota u) with ⟨-, hCredit⟩ | ⟨-, hCredit⟩
        · rw [hCredit] at hNew
          cases hNew
        · rw [hCredit] at hNew
          rw [List.mem_singleton.mp hNew]
      rw [hAmount]
      exact hGateway.trans (gatewayQuota_congr quotaPerUnit (h.sameOrder hFind))
    · exact hAmounts x hOld

/-- In every interleaving of calls on an order: it is credited at most once, to its owner and only
if it ends completed; no other quota changes; once it has left `pending` its status stays. If all
manual completions meet the condition, the amount is the quota of its gateway. -/
theorem topUp_credited_at_most_once (quotaPerUnit : ℚ) {tradeNo : String} {s : State} {t : TopUp}
    (hOrder : s.db.orders.find? tradeNo = some t) (hFresh : s.credits = []) (l : List Call) :
    let s' := run (step quotaPerUnit tradeNo) s l
    (s'.credits.length ≤ 1 ∧ ∀ x ∈ s'.credits, x.userId = t.userId) ∧
      (s'.credits ≠ [] → ∃ u, s'.db.orders.find? tradeNo = some u ∧ u.status = .success) ∧
      (∀ userId, s'.db.quota userId = s.db.quota userId + creditedTo s'.credits userId) ∧
      (∀ l₁ l₂ u, l = l₁ ++ l₂ →
        (run (step quotaPerUnit tradeNo) s l₁).db.orders.find? tradeNo = some u →
        u.status ≠ .pending → s'.db.orders.find? tradeNo = some u) ∧
      (Guarded (step quotaPerUnit tradeNo) (AsGateway quotaPerUnit tradeNo) s l →
        ∀ x ∈ s'.credits, x.amount = gatewayQuota quotaPerUnit t) := by
  intro s'
  have hInv : Inv tradeNo t s.db.quota s' :=
    run_invariant (I := Inv tradeNo t s.db.quota) (fun _ c h => h.step c)
      (.initial hOrder hFresh) l
  refine ⟨?_, ?_, hInv.quotas, ?_, ?_⟩
  · rcases hInv.credits with hNone | ⟨amount, hOne⟩
    · rw [hNone]
      exact ⟨Nat.zero_le 1, nofun⟩
    · rw [hOne]
      refine ⟨le_refl 1, fun x hx => ?_⟩
      rw [List.mem_singleton.mp hx]
  · intro hCredited
    obtain ⟨u, hFind, -, hSuccess⟩ := hInv.order
    exact ⟨u, hFind, hSuccess hCredited⟩
  · intro l₁ l₂ u hl hFind hStatus
    have hSame : s' = run (step quotaPerUnit tradeNo) s l₁ := by
      show run (step quotaPerUnit tradeNo) s l = _
      rw [hl, run_append, run_of_not_pending hFind hStatus]
    rw [hSame]
    exact hFind
  · intro hl
    have hBoth : Inv tradeNo t s.db.quota s' ∧
        ∀ x ∈ s'.credits, x.amount = gatewayQuota quotaPerUnit t := by
      refine Guarded.invariant
        (I := fun s' => Inv tradeNo t s.db.quota s' ∧
          ∀ x ∈ s'.credits, x.amount = gatewayQuota quotaPerUnit t) ?_ ?_ hl
      · intro s₁ c h hCall
        exact ⟨h.1.step c, amount_step h.1 h.2 hCall⟩
      · refine ⟨.initial hOrder hFresh, fun x hx => ?_⟩
        rw [hFresh] at hx
        cases hx
    exact hBoth.2

def sampleOrder (provider : PaymentProvider) : TopUp :=
  ⟨"T1", 1, 10, 10, "card", provider, 0, 0, .pending⟩

def sampleDb (provider : PaymentProvider) : Db :=
  ⟨⟨[sampleOrder provider], by simp⟩, fun _ => some ⟨0, "", ""⟩⟩

/-- Callbacks and a manual completion race on a Waffo order: it is credited once, with the quota
of its gateway. -/
theorem race_credited_once :
    let s : State := ⟨sampleDb .waffo, []⟩
    let l : List Call := [.rechargeWaffo 5 .good, .manualComplete 6 .good, .rechargeWaffo 7 .good,
      .updatePending .waffo .failed .good]
    (run (step 500000 "T1") s l).credits.length ≤ 1 ∧
      (∀ x ∈ (run (step 500000 "T1") s l).credits,
        x.amount = gatewayQuota 500000 (sampleOrder .waffo)) ∧
      (run (step 500000 "T1") s l).db.quota 1 = 5000000 := by
  intro s l
  have hOrder : s.db.orders.find? "T1" = some (sampleOrder .waffo) := by decide
  have hOnce := topUp_credited_at_most_once 500000 hOrder rfl l
  exact ⟨hOnce.1.1, hOnce.2.2.2.2 (by decide +kernel), by decide +kernel⟩

/-- One Creem order, two amounts: its gateway adds 10, a manual completion adds 5000000. -/
theorem creem_amount_depends_on_caller :
    let s : State := ⟨sampleDb .creem, []⟩
    (run (step 500000 "T1") s [.rechargeCreem "" 5 .good]).credits = [⟨1, 10⟩] ∧
      (run (step 500000 "T1") s [.manualComplete 5 .good]).credits = [⟨1, 5000000⟩] := by
  decide +kernel

end Qapi.Wallet
