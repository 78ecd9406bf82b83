import Qapi.Wallet.Epay

/-!
# What a manual completion credits

`ManualCompleteTopUp` against the completing function of the gateway that the order is
of: `EpayNotify`, `Recharge`, `RechargeCreem`, `RechargeWaffo` or `RechargeWaffoPancake`.
-/

namespace Qapi.Wallet

open Qapi.Core

inductive Gateway
  | epay
  | stripe
  | creem
  | waffo
  | waffoPancake
deriving DecidableEq, Repr

def Gateway.provider : Gateway → PaymentProvider
  | .epay => .epay
  | .stripe => .stripe
  | .creem => .creem
  | .waffo => .waffo
  | .waffoPancake => .waffoPancake

def credited : Except Err (Option Credit × Db) → Option Credit
  | .ok (credit, _) => credit
  | .error _ => none

/-- What the gateway's own function credits for the order, called at the time `now` with no error
of the database. The text is what the gateway reports besides: the payment method of Epay, the
customer of Stripe, the address of Creem. -/
def Gateway.credit (g : Gateway) (quotaPerUnit : ℚ) (now : Int) (text tradeNo : String) (db : Db) :
    Option Credit :=
  match g with
  | .epay =>
    (run (Epay.step quotaPerUnit tradeNo) ⟨db, fun _ => false, fun _ => .idle, []⟩
      [.lock 0 0, .read 0 text none, .save 0 none, .credit 0 none]).credits.head?
  | .stripe => credited (recharge quotaPerUnit .good now tradeNo text db)
  | .creem => credited (rechargeCreem .good now tradeNo text db)
  | .waffo => credited (rechargeWaffo quotaPerUnit .good now tradeNo db)
  | .waffoPancake => credited (rechargeWaffoPancake quotaPerUnit .good now tradeNo db)

section

variable {quotaPerUnit : ℚ} {db : Db} {tradeNo : String} {t : TopUp}

/-- A pending order is completed if nothing fails and its quota passes the check. -/
theorem completeTx_good (hOrder : db.orders.find? tradeNo = some t) (hPending : t.status = .pending)
    (hUser : (db.users t.userId).isSome = true) (c : Completion)
    (hProvider : c.provider = none ∨ c.provider = some t.paymentProvider)
    (hQuota : c.checksQuota = true → 0 < c.quota t) (now : Int) :
    completeTx .good c now tradeNo db =
      .ok (some ⟨t.userId, c.quota t⟩, db.complete c now t) := by
  have hLock : lockTopUp .good (.msg "充值订单不存在") tradeNo db = .ok t := by
    simp [lockTopUp, Outcome.good, hOrder]
  have hMatch : ¬ (c.provider ≠ none ∧ c.provider ≠ some t.paymentProvider) := by
    rintro ⟨hNone, hOther⟩
    exact hProvider.elim hNone hOther
  have hFresh : ¬ (c.acceptsCompleted = true ∧ t.status = .success) := by
    rintro ⟨-, hSuccess⟩
    rw [hPending] at hSuccess
    cases hSuccess
  have hChecked : ¬ (c.checksQuota = true ∧ c.quota t ≤ 0) := by
    rintro ⟨hChecks, hLe⟩
    exact not_le.mpr (hQuota hChecks) hLe
  have hStmt : ∀ s, stmt Outcome.good s = .ok () := fun _ => rfl
  have hRead : c.readUser .good (db.users t.userId) = .ok () := by
    unfold Completion.readUser
    split
    · rw [hStmt, ok_bind, failIf_of_not (Option.isSome_iff_ne_none.mp hUser)]
    · rfl
  simp only [completeTx, hLock, ok_bind, failIf_of_not hMatch, if_neg hFresh,
    failIf_of_not (not_not.mpr hPending), failIf_of_not hChecked, hStmt, hRead, pure_eq_ok,
    Db.credited_of_isSome hUser]

theorem gatewayRecharge_good (hTrade : tradeNo ≠ "") (hOrder : db.orders.find? tradeNo = some t)
    (hPending : t.status = .pending) (hUser : (db.users t.userId).isSome = true) (c : Completion)
    (hProvider : c.provider = some t.paymentProvider)
    (hQuota : c.checksQuota = true → 0 < c.quota t) (now : Int) :
    credited (gatewayRecharge .good c now tradeNo db) = some ⟨t.userId, c.quota t⟩ := by
  rw [gatewayRecharge, failIf_of_not hTrade, ok_bind,
    completeTx_good hOrder hPending hUser c (Or.inr hProvider) hQuota now]
  rfl

theorem manualCompleteTopUp_good (hTrade : tradeNo ≠ "") (hOrder : db.orders.find? tradeNo = some t)
    (hPending : t.status = .pending) (hUser : (db.users t.userId).isSome = true)
    (hQuota : 0 < manualQuota quotaPerUnit t) (now : Int) :
    manualCompleteTopUp quotaPerUnit .good now tradeNo db =
      .ok (some ⟨t.userId, manualQuota quotaPerUnit t⟩,
        db.complete (manualCompletion quotaPerUnit) now t) := by
  rw [manualCompleteTopUp, failIf_of_not hTrade, ok_bind,
    completeTx_good hOrder hPending hUser (manualCompletion quotaPerUnit) (Or.inl rfl)
      (fun _ => Int.cast_pos.mpr hQuota) now]
  rfl

theorem epay_credit (hOrder : db.orders.find? tradeNo = some t) (hPending : t.status = .pending)
    (hUser : (db.users t.userId).isSome = true) (hEpay : t.paymentProvider = .epay)
    (hQuota : 0 ≤ amountQuota quotaPerUnit t) (now : Int) (text : String) :
    Gateway.epay.credit quotaPerUnit now text tradeNo db =
      some ⟨t.userId, amountQuota quotaPerUnit t⟩ := by
  have hFound : Epay.foundPending tradeNo text none db =
      some { t with paymentMethod := text, status := .success } := by
    simp [Epay.foundPending, hOrder, hEpay, hPending]
  have hSame : amountQuota quotaPerUnit { t with paymentMethod := text, status := .success } =
      amountQuota quotaPerUnit t := rfl
  have hCredited : (db.saveTopUp { t with paymentMethod := text, status := .success }).credited
      t.userId (amountQuota quotaPerUnit t) = some ⟨t.userId, amountQuota quotaPerUnit t⟩ :=
    Db.credited_of_isSome hUser _
  simp [Gateway.credit, Epay.step, Epay.State.acquire, Epay.State.setCallback, hFound, hSame,
    not_lt.mpr hQuota, hCredited]

theorem manualQuota_of_ne (h : t.paymentProvider ≠ .stripe) :
    manualQuota quotaPerUnit t = amountQuota quotaPerUnit t := if_neg h

/-- Other gateways credit the amount, as a manual completion does. -/
theorem gatewayQuota_of_ne (hStripe : t.paymentProvider ≠ .stripe)
    (hCreem : t.paymentProvider ≠ .creem) (hQuota : 0 < manualQuota quotaPerUnit t) :
    gatewayQuota quotaPerUnit t = amountQuota quotaPerUnit t ∧ 0 < amountQuota quotaPerUnit t := by
  rw [manualQuota_of_ne hStripe] at hQuota
  refine ⟨?_, hQuota⟩
  unfold gatewayQuota
  split <;> first | contradiction | rfl

/-- The gateway's own function credits the quota of the gateway, for an order that a manual
completion would credit too. -/
theorem Gateway.credit_eq (g : Gateway) (hTrade : tradeNo ≠ "")
    (hOrder : db.orders.find? tradeNo = some t) (hPending : t.status = .pending)
    (hUser : (db.users t.userId).isSome = true) (hGateway : t.paymentProvider = g.provider)
    (hQuota : 0 < manualQuota quotaPerUnit t)
    (now : Int) (text : String) :
    g.credit quotaPerUnit now text tradeNo db =
      some ⟨t.userId, gatewayQuota quotaPerUnit t⟩ := by
  cases g with
  | epay =>
    obtain ⟨hAmount, hPos⟩ :=
      gatewayQuota_of_ne (by rw [hGateway]; decide) (by rw [hGateway]; decide) hQuota
    rw [epay_credit hOrder hPending hUser hGateway hPos.le now text, hAmount]
  | stripe =>
    have hAmount : gatewayQuota quotaPerUnit t = t.money * quotaPerUnit := by
      simp [gatewayQuota, hGateway, Gateway.provider]
    rw [hAmount]
    exact gatewayRecharge_good hTrade hOrder hPending hUser (rechargeCompletion quotaPerUnit text)
      (congrArg some hGateway.symm) (fun h => by cases h) now
  | creem =>
    have hAmount : gatewayQuota quotaPerUnit t = t.amount := by
      simp [gatewayQuota, hGateway, Gateway.provider]
    rw [hAmount]
    exact gatewayRecharge_good hTrade hOrder hPending hUser (rechargeCreemCompletion text)
      (congrArg some hGateway.symm) (fun h => by cases h) now
  | waffo =>
    obtain ⟨hAmount, hPos⟩ :=
      gatewayQuota_of_ne (by rw [hGateway]; decide) (by rw [hGateway]; decide) hQuota
    rw [hAmount]
    exact gatewayRecharge_good hTrade hOrder hPending hUser (waffoCompletion quotaPerUnit .waffo)
      (congrArg some hGateway.symm) (fun _ => Int.cast_pos.mpr hPos) now
  | waffoPancake =>
    obtain ⟨hAmount, hPos⟩ :=
      gatewayQuota_of_ne (by rw [hGateway]; decide) (by rw [hGateway]; decide) hQuota
    rw [hAmount]
    exact gatewayRecharge_good hTrade hOrder hPending hUser
      (waffoCompletion quotaPerUnit .waffoPancake) (congrArg some hGateway.symm)
      (fun _ => Int.cast_pos.mpr hPos) now

/-- An order that a manual completion refuses to credit meets the condition. -/
theorem manualAgrees_of_nonpos (h : manualQuota quotaPerUnit t ≤ 0) :
    ManualAgrees quotaPerUnit t := by
  constructor
  · intro hStripe
    left
    rwa [manualQuota, if_pos hStripe] at h
  · intro hCreem
    left
    have hNe : t.paymentProvider ≠ .stripe := by rw [hCreem]; decide
    rwa [manualQuota_of_ne hNe] at h

end

/-- For a pending order of a gateway: whatever a manual completion credits is what the gateway's
own function would have credited, exactly when the order meets the condition; for an owner who has
no row neither credits anything. -/
theorem manual_credits_as_gateway_iff (quotaPerUnit : ℚ) {db : Db} {tradeNo : String} {t : TopUp}
    (hTrade : tradeNo ≠ "") (hOrder : db.orders.find? tradeNo = some t)
    (hPending : t.status = .pending) {g : Gateway} (hGateway : t.paymentProvider = g.provider) :
    (∀ o now credit db', manualCompleteTopUp quotaPerUnit o now tradeNo db = .ok (some credit, db') →
        ∀ now' text, g.credit quotaPerUnit now' text tradeNo db = some credit) ↔
      (db.users t.userId = none ∨ ManualAgrees quotaPerUnit t) := by
  rcases db.credited_cases t.userId (manualQuota quotaPerUnit t) with
    ⟨hGone, hNothing⟩ | ⟨hUser, hCredited⟩
  · refine iff_of_true ?_ (Or.inl hGone)
    intro o now credit db' hManual
    rcases completeTx_ok (manualCompleteTopUp_ok hManual) with ⟨hNone, -⟩ |
      ⟨u, hFind, -, -, -, hCredit, -⟩
    · cases hNone
    · rw [hOrder] at hFind
      cases hFind
      cases hCredit.trans hNothing
  rw [or_iff_right (Option.isSome_iff_ne_none.mp hUser)]
  constructor
  · intro h
    by_cases hQuota : 0 < manualQuota quotaPerUnit t
    · have hManual := manualCompleteTopUp_good hTrade hOrder hPending hUser hQuota 0
      have hSame := h .good 0 _ _ hManual 0 ""
      rw [g.credit_eq hTrade hOrder hPending hUser hGateway hQuota 0 ""] at hSame
      have hAmount : gatewayQuota quotaPerUnit t = manualQuota quotaPerUnit t :=
        congrArg Credit.amount (Option.some.inj hSame)
      exact (manualQuota_eq_gatewayQuota_iff hQuota).mp hAmount.symm
    · exact manualAgrees_of_nonpos (not_lt.mp hQuota)
  · intro hAgrees o now credit db' hManual now' text
    rcases completeTx_ok (manualCompleteTopUp_ok hManual) with ⟨hNone, -⟩ |
      ⟨u, hFind, -, -, hPositive, hCredit, -⟩
    · cases hNone
    · rw [hOrder] at hFind
      cases hFind
      have hQuota : 0 < manualQuota quotaPerUnit t := Int.cast_pos.mp (hPositive rfl)
      have hAmount := (manualQuota_eq_gatewayQuota_iff hQuota).mpr hAgrees
      rw [g.credit_eq hTrade hOrder hPending hUser hGateway hQuota now' text, ← hAmount]
      exact (hCredit.trans hCredited).symm

/-- A Stripe order whose product is whole is credited alike. -/
theorem whole_stripe_order_credited_alike :
    ManualAgrees 500000 (sampleOrder .stripe) ∧
      ∀ now text, Gateway.stripe.credit 500000 now text "T1" (sampleDb .stripe) =
        some ⟨1, 5000000⟩ := by
  have hAgrees : ManualAgrees 500000 (sampleOrder .stripe) := by decide +kernel
  have hOrder : (sampleDb .stripe).orders.find? "T1" = some (sampleOrder .stripe) := by
    decide
  have hQuota : 0 < manualQuota 500000 (sampleOrder .stripe) := by decide +kernel
  have hCredit : (⟨1, manualQuota 500000 (sampleOrder .stripe)⟩ : Credit) = ⟨1, 5000000⟩ := by
    decide +kernel
  have hManual := manualCompleteTopUp_good (by decide) hOrder rfl rfl hQuota 0
  refine ⟨hAgrees, ?_⟩
  rw [← hCredit]
  exact (manual_credits_as_gateway_iff 500000 (g := .stripe) (by decide) hOrder rfl rfl).mpr
    (Or.inr hAgrees) .good 0 _ _ hManual

/-- A Creem order of 10 is credited 10 by its gateway and 5000000 by hand. -/
theorem creem_order_credited_as_money :
    credited (manualCompleteTopUp 500000 .good 0 "T1" (sampleDb .creem)) = some ⟨1, 5000000⟩ ∧
      Gateway.creem.credit 500000 0 "" "T1" (sampleDb .creem) = some ⟨1, 10⟩ := by
  decide +kernel

end Qapi.Wallet
