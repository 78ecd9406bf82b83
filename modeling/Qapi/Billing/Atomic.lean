import Qapi.Billing.NewSession

/-!
# Failed pre-billing leaves no trace

Opening a session charges the token and a source in separate steps, with rollbacks
written by hand, and may run all of it a second time with another source. When the
rollbacks go through, an error leaves every balance as it was, a failed
reservation leaves the session as it was too, and a session that opens has charged
exactly one source and the token once.
-/

namespace Qapi.Billing

open Qapi.Core Subscription BillingSession Table

/-! ## Opening -/

variable {env : BillingEnv} {info : RelayInfo} {quota : Int} {w w' : World}

theorem preConsume_token {o : Outcome} {u : Unit} (h : (if quota > 0 then preConsumeTokenQuota
      env o info quota w else .ok ((), w)) = .ok (u, w')) :
    w' = w.addToken info.tokenId (if info.isPlayground then 0 else -max quota 0) := by
  split at h
  · rename_i hq
    rw [preConsumeTokenQuota_ok h, max_eq_left hq.le]
  · rename_i hq
    cases h
    rw [max_eq_right (not_lt.mp hq)]
    simp

theorem rollbackToken_restores {o : Outcome} {x : Int} (w : World) (hx : 0 ≤ x)
    (ho : o .tokenQuota = none) :
    rollbackToken o info x (w.addToken info.tokenId (if info.isPlayground then 0 else -x)) = w := by
  unfold rollbackToken
  cases hp : info.isPlayground with
  | true => simp
  | false =>
    split
    · simp [increaseTokenQuota, quotaWrite_good hx ho, World.addToken_addToken]
    · rename_i hNot
      have hZero : x = 0 := by
        by_contra hNe
        exact hNot ⟨by omega, rfl⟩
      simp [hZero]

variable {o : TrySteps} {s : BillingSession} {e : APIError}

theorem preConsume_error (hNew : s.tokenConsumed = 0) (hRollback : o.rollback .tokenQuota = none)
    (h : preConsume env o quota s w = (.error e, w')) : w' = w := by
  have hConsumed : (if effectiveQuota env s quota > 0 then effectiveQuota env s quota
      else s.tokenConsumed) = max (effectiveQuota env s quota) 0 := by
    split <;> omega
  unfold preConsume at h
  dsimp only at h
  split at h
  · cases h
    rfl
  rename_i u w₁ hToken
  split at h
  · rw [hConsumed, preConsume_token hToken,
      rollbackToken_restores w (le_max_right _ _) hRollback] at h
    cases h
    rfl
  · cases h

/-- What a session that opens has done to the balances: the token is charged once,
and so is the source of the session, unless the request was recorded before. -/
def ChargedOnce (env : BillingEnv) (info : RelayInfo) (s : BillingSession) (w w' : World) : Prop :=
  w'.tokens = (w.addToken info.tokenId
    (if info.isPlayground then 0 else -max s.preConsumedQuota 0)).tokens ∧
  match s.funding with
  | .wallet _ _ =>
    w'.subs = w.subs ∧ w'.users = (w.addUser info.userId (-max s.preConsumedQuota 0)).users
  | .subscription f =>
    w'.users = w.users ∧
      ((∃ record, w.subs.records.find? info.requestId = some record ∧ w'.subs = w.subs) ∨
        (w.subs.records.find? info.requestId = none ∧
          ∃ sub d, f.subscriptionId = sub.id ∧
            ChargedExactly env.store info.userId s.preConsumedQuota sub d w.subs w'.subs))

theorem walletPreConsume_ok {o : Outcome} {amount userId : Int} {f : Funding}
    (h : (Funding.wallet userId 0).preConsume env o amount w = .ok (f, w')) :
    f = .wallet userId (max amount 0) ∧ w' = w.addUser userId (-max amount 0) := by
  simp only [Funding.preConsume] at h
  split at h
  · rename_i hAmount
    cases h
    simp [max_eq_right hAmount]
  · rename_i hAmount
    obtain ⟨⟨u, w₁⟩, hw, h⟩ := of_bind h
    cases h
    rw [max_eq_left (not_le.mp hAmount).le]
    exact ⟨rfl, quotaWrite_ok hw⟩

theorem subscriptionPreConsume_ok {o : Outcome} {amount : Int} {f : SubscriptionFunding}
    {f' : Funding} (h : (Funding.subscription f).preConsume env o amount w = .ok (f', w')) :
    ∃ r db, preConsumeUserSubscription env.store o f.requestId f.userId f.amount w.subs =
        .ok (r, db) ∧ w' = { w with subs := db } ∧
      f' = .subscription { f with
        subscriptionId := r.userSubscriptionId
        preConsumed := r.preConsumed
        amountTotal := r.amountTotal
        amountUsedAfter := r.amountUsedAfter
        planId := ((env.planInfo r.userSubscriptionId).getD (f.planId, f.planTitle)).1
        planTitle := ((env.planInfo r.userSubscriptionId).getD (f.planId, f.planTitle)).2 } := by
  obtain ⟨⟨r, w₁⟩, hw, h⟩ := of_bind h
  cases h
  obtain ⟨db, hdb, rfl⟩ := World.onSubs_ok hw
  exact ⟨r, db, hdb, rfl, rfl⟩

theorem preConsume_session {s' : BillingSession} (h : preConsume env o quota s w = (.ok s', w')) :
    ∃ f, s.funding.preConsume env o.funding (effectiveQuota env s quota)
        (w.addToken s.relayInfo.tokenId
          (if s.relayInfo.isPlayground then 0 else -max (effectiveQuota env s quota) 0)) =
        .ok (f, w') ∧
      s' = syncRelayInfo { s with
        funding := f
        trusted := s.shouldTrust env
        tokenConsumed := if effectiveQuota env s quota > 0 then effectiveQuota env s quota
          else s.tokenConsumed
        preConsumedQuota := effectiveQuota env s quota } := by
  unfold preConsume at h
  dsimp only at h
  split at h
  · cases h
  rename_i u w₁ hToken
  rw [preConsume_token hToken] at h
  split at h
  · cases h
  · rename_i f w₂ hFunding
    cases h
    exact ⟨f, hFunding, rfl⟩

theorem subConsume_pos (quota : Int) : 0 < subConsume quota := by
  unfold subConsume
  split <;> omega

theorem effectiveQuota_subscription (env : BillingEnv) (info : RelayInfo) (f : SubscriptionFunding)
    (quota : Int) : effectiveQuota env (newSession info (.subscription f)) quota = quota := by
  simp [effectiveQuota, shouldTrust, newSession]

theorem tryWallet_preConsume (h : tryWallet env o info quota w = (.ok s, w')) :
    ∃ userQuota, 0 < userQuota ∧ quota ≤ userQuota ∧
      preConsume env o quota
        (newSession { info with userQuota := userQuota } (.wallet info.userId 0)) w =
        (.ok s, w') := by
  unfold tryWallet at h
  split at h
  · cases h
  rename_i userQuota hQuota
  split at h
  · cases h
  split at h
  · cases h
  · exact ⟨userQuota, by omega, by omega, h⟩

theorem tryWallet_chargedOnce (h : tryWallet env o info quota w = (.ok s, w')) :
    ChargedOnce env info s w w' := by
  obtain ⟨userQuota, -, -, h⟩ := tryWallet_preConsume h
  obtain ⟨f, hFunding, rfl⟩ := preConsume_session h
  obtain ⟨rfl, rfl⟩ := walletPreConsume_ok hFunding
  simp only [ChargedOnce, syncRelayInfo_funding, syncRelayInfo_preConsumedQuota, newSession]
  exact ⟨rfl, rfl, rfl⟩

theorem trySubscription_chargedOnce (h : trySubscription env o info quota w = (.ok s, w')) :
    ChargedOnce env info s w w' := by
  obtain ⟨f, hFunding, rfl⟩ := preConsume_session h
  rw [effectiveQuota_subscription] at *
  obtain ⟨r, db, hPre, rfl, rfl⟩ := subscriptionPreConsume_ok hFunding
  simp only [ChargedOnce, syncRelayInfo_funding, syncRelayInfo_preConsumedQuota, newSession]
  refine ⟨rfl, rfl, ?_⟩
  obtain ⟨-, ⟨record, sub, hRecord, -, -, -, rfl⟩ | ⟨hFresh, passed, sub, rest, d, hl, hc⟩⟩ :=
    preConsume_ok hPre
  · exact Or.inl ⟨record, hRecord, rfl⟩
  · exact Or.inr ⟨hFresh, sub, d, by rw [hc.result], chargedExactly_of_first hl hc⟩

/-- The rollbacks that opening a session may issue go through. -/
structure OpenSteps.RollbacksSucceed (o : OpenSteps) : Prop where
  wallet : o.wallet.rollback .tokenQuota = none
  subscription : o.subscription.rollback .tokenQuota = none

theorem tryWallet_error (hRollback : o.rollback .tokenQuota = none)
    (h : tryWallet env o info quota w = (.error e, w')) : w' = w := by
  unfold tryWallet at h
  split at h
  · cases h
    rfl
  split at h
  · cases h
    rfl
  split at h
  · cases h
    rfl
  · exact preConsume_error rfl hRollback h

theorem trySubscription_error (hRollback : o.rollback .tokenQuota = none)
    (h : trySubscription env o info quota w = (.error e, w')) : w' = w :=
  preConsume_error rfl hRollback h

/-- What a call that opens a session may do: fail and leave every balance alone,
or succeed and charge once. -/
def OpensCleanly (env : BillingEnv) (info : RelayInfo) (w : World) :
    Except APIError BillingSession × World → Prop
  | (.error _, w') => w' = w
  | (.ok s, w') => ChargedOnce env info s w w'

theorem tryWallet_opensCleanly (hRollback : o.rollback .tokenQuota = none) :
    OpensCleanly env info w (tryWallet env o info quota w) := by
  rcases h : tryWallet env o info quota w with ⟨e | s, w'⟩
  · exact tryWallet_error hRollback h
  · exact tryWallet_chargedOnce h

theorem trySubscription_opensCleanly (hRollback : o.rollback .tokenQuota = none) :
    OpensCleanly env info w (trySubscription env o info quota w) := by
  rcases h : trySubscription env o info quota w with ⟨e | s, w'⟩
  · exact trySubscription_error hRollback h
  · exact trySubscription_chargedOnce h

theorem overflowToWallet_opensCleanly {o : OpenSteps} {apiErr : APIError}
    (hRollback : o.wallet.rollback .tokenQuota = none) :
    OpensCleanly env info w (overflowToWallet env o info quota apiErr w) := by
  unfold overflowToWallet
  split
  · rfl
  · exact tryWallet_opensCleanly hRollback
  · rfl

theorem newBillingSession_opensCleanly (env : BillingEnv) {o : OpenSteps} (info : RelayInfo)
    (quota : Int) (w : World) (ho : o.RollbacksSucceed) :
    OpensCleanly env info w (newBillingSession env o info quota w) := by
  unfold newBillingSession
  split
  · exact trySubscription_opensCleanly ho.subscription
  · exact tryWallet_opensCleanly ho.wallet
  · split
    · rename_i e w' hTry
      obtain rfl := tryWallet_error ho.wallet hTry
      split
      · exact trySubscription_opensCleanly ho.subscription
      · rfl
    · exact tryWallet_opensCleanly ho.wallet
  · split
    · rfl
    · exact tryWallet_opensCleanly ho.wallet
    · split
      · rename_i e w' hTry
        obtain rfl := trySubscription_error ho.subscription hTry
        split
        · exact overflowToWallet_opensCleanly ho.wallet
        · rfl
      · exact trySubscription_opensCleanly ho.subscription

/-! ## Reserving -/

variable {delta : Int}

theorem postConsume_pos {o : Outcome} {id : Int} {db db' : Db} {u : Unit}
    (h : postConsumeUserSubscriptionDelta o id delta db = .ok (u, db')) : 0 < id := by
  obtain ⟨_, hId, -⟩ := of_bind h
  rw [failIf_eq_ok] at hId
  omega

theorem postConsume_good {o : Outcome} {id : Int} {db : Db} {sub : UserSubscription}
    (hId : 0 < id) (hDelta : delta ≠ 0) (hSub : db.subs.find? id = some sub)
    (hTotal : 0 < sub.amountTotal → usedAfter sub.amountUsed delta ≤ sub.amountTotal)
    (ho : ∀ s, o s = none) :
    postConsumeUserSubscriptionDelta o id delta db = .ok ((), db.saveSub (adjusted sub delta)) := by
  have hLimit : ¬ (sub.amountTotal > 0 ∧ usedAfter sub.amountUsed delta > sub.amountTotal) := by
    omega
  simp [postConsumeUserSubscriptionDelta, failIf_of_not (not_le.mpr hId), hDelta,
    stmt_of_none (ho _), hSub, found, failIf_of_not hLimit, adjusted]

theorem adjusted_undone {db : Db} {k : Int} {sub : UserSubscription}
    (hSub : db.subs.find? k = some sub) (hUsed : 0 ≤ sub.amountUsed) (hDelta : 0 < delta) :
    (db.saveSub (adjusted sub delta)).saveSub (adjusted (adjusted sub delta) (-delta)) = db := by
  have hBack : adjusted (adjusted sub delta) (-delta) = sub := by
    have h₁ : usedAfter sub.amountUsed delta = sub.amountUsed + delta :=
      usedAfter_of_nonneg (by omega)
    have h₂ : usedAfter (sub.amountUsed + delta) (-delta) = sub.amountUsed + delta + -delta :=
      usedAfter_of_nonneg (by omega)
    simp only [adjusted, h₁, h₂]
    simp
  obtain rfl := key_of_find? hSub
  rw [hBack]
  simp only [Db.saveSub]
  rw [save_save (by rfl), save_eq_self hSub]

theorem reserve_error_wallet {o : ReserveSteps} {userId consumed : Int} {f : Funding}
    (hDelta : 0 < delta) (hRollback : ∀ s, o.rollback s = none)
    (h : reserveFunding o.funding delta w (.wallet userId consumed) = .ok (f, w')) :
    rollbackFundingReserve o.rollback delta w' f = (.wallet userId consumed, w) := by
  simp only [reserveFunding] at h
  split at h
  · cases h
  · rename_i u w₁ hw
    cases h
    rw [quotaWrite_ok hw]
    simp [rollbackFundingReserve, increaseUserQuota, quotaWrite_good hDelta.le (hRollback _),
      World.addUser_addUser]

theorem reserve_error_subscription {o : ReserveSteps} {sf : SubscriptionFunding} {f : Funding}
    (hw : w.subs.AllRows InBounds) (hDelta : 0 < delta) (hRollback : ∀ s, o.rollback s = none)
    (h : reserveFunding o.funding delta w (.subscription sf) = .ok (f, w')) :
    rollbackFundingReserve o.rollback delta w' f = (.subscription sf, w) := by
  simp only [reserveFunding] at h
  split at h
  · cases h
  rename_i u w₁ hPost
  cases h
  obtain ⟨db, hdb, rfl⟩ := World.onSubs_ok hPost
  obtain ⟨hZero, -⟩ | ⟨sub, hSub, rfl, -⟩ := postConsume_ok hdb
  · omega
  have hBounds := hw.find hSub
  have hKey : sub.id = sf.subscriptionId := key_of_find? hSub
  have hSub' : (w.subs.saveSub (adjusted sub delta)).subs.find? sf.subscriptionId =
      some (adjusted sub delta) := find?_save_self hKey hSub
  have hUsed : usedAfter (usedAfter sub.amountUsed delta) (-delta) = sub.amountUsed := by
    unfold InBounds at hBounds
    unfold usedAfter
    omega
  have hBack := postConsume_good (o := o.rollback) (postConsume_pos hdb) (show -delta ≠ 0 by omega)
    hSub' (by simpa [hUsed] using hBounds.2) hRollback
  simp only [rollbackFundingReserve, hBack, World.onSubs, ok_bind, pure_eq_ok, transact_ok,
    adjusted_undone hSub hBounds.1 hDelta]

theorem reserve_error {o : ReserveSteps} {targetQuota : Int} {st st' : State}
    (hw : st.world.subs.AllRows InBounds) (hRollback : ∀ s, o.rollback s = none)
    (h : reserve env o targetQuota st = (.error e, st')) : st' = st := by
  obtain ⟨s, w⟩ := st
  unfold reserve at h
  dsimp only at h
  split at h
  · cases h
  split at h
  · cases h
  rename_i hDelta
  have hPos : 0 < targetQuota - s.preConsumedQuota := not_le.mp hDelta
  split at h
  · cases h
    rfl
  rename_i f w₁ hFunding
  split at h
  · have hUndo : rollbackFundingReserve o.rollback (targetQuota - s.preConsumedQuota) w₁ f =
        (s.funding, w) := by
      cases hf : s.funding with
      | wallet userId consumed => exact reserve_error_wallet hPos hRollback (hf ▸ hFunding)
      | subscription sf => exact reserve_error_subscription hw hPos hRollback (hf ▸ hFunding)
    rw [hUndo] at h
    cases h
    rfl
  · cases h

/-- An error of `NewBillingSession` leaves every balance as it was, when the
rollbacks it issues go through; when it succeeds, only the source of the session
and the token are charged, once. An error of `Reserve` leaves the balances and the
session as they were, when its rollback goes through. -/
theorem failed_prebilling_leaves_no_trace (env : BillingEnv) (w : World)
    (hw : Reachable w.subs) :
    (∀ o info quota, o.RollbacksSucceed →
      (∀ e w', newBillingSession env o info quota w = (.error e, w') → w' = w) ∧
      (∀ s w', newBillingSession env o info quota w = (.ok s, w') → ChargedOnce env info s w w')) ∧
    (∀ o targetQuota s e st', (∀ x, o.rollback x = none) →
      reserve env o targetQuota ⟨s, w⟩ = (.error e, st') → st' = ⟨s, w⟩) := by
  constructor
  · intro o info quota ho
    have hOpen := newBillingSession_opensCleanly env info quota w ho
    constructor
    · intro e w' h
      rw [h] at hOpen
      exact hOpen
    · intro s w' h
      rw [h] at hOpen
      exact hOpen
  · intro o targetQuota s e st' hRollback h
    exact reserve_error hw.inBounds hRollback h

/-- The wallet statement fails after the token was charged, and the preference
rules a second source out. -/
theorem wallet_failure_leaves_no_trace :
    let o : OpenSteps := ⟨⟨.good, .good, fun _ => some (.msg "deadlock"), .good⟩,
      ⟨.good, .good, .good, .good⟩, .good, .good⟩
    ∃ e w', newBillingSession sampleEnv o (sampleInfo "wallet_only") 50 (sampleWorld 300) =
      (.error e, w') ∧ w' = sampleWorld 300 := by
  intro o
  have hError : isOk (newBillingSession sampleEnv o (sampleInfo "wallet_only") 50
      (sampleWorld 300)).1 = false := by decide
  rcases h : newBillingSession sampleEnv o (sampleInfo "wallet_only") 50 (sampleWorld 300) with
    ⟨e | s, w'⟩
  · exact ⟨e, w', rfl, ((failed_prebilling_leaves_no_trace sampleEnv (sampleWorld 300)
      purchased_reachable).1 o _ _ ⟨rfl, rfl⟩).1 e w' h⟩
  · rw [h] at hError
    cases hError

end Qapi.Billing
