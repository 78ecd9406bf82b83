import Qapi.Async.Basic
import Qapi.Billing.Quota
import Qapi.Pricing.Basic

/-!
# Billing of async tasks

`service/task_billing.go`: the refund of a failed task and the settlement of a
finished one, on the balances of the user, the subscription and the token. Both leave
the balances as they are when the funding source cannot be adjusted.
-/

namespace Qapi.Async

open Qapi.Core Subscription Billing Pricing

def taskIsSubscription (t : Task) : Bool :=
  t.billingSource = "subscription" && decide (0 < t.subscriptionId)

/-- `taskAdjustFunding`: a positive `delta` charges. -/
def taskAdjustFunding (o : Outcome) (t : Task) (delta : Int) (w : World) :
    Except Err (Unit × World) :=
  if taskIsSubscription t then
    w.onSubs (postConsumeUserSubscriptionDelta o t.subscriptionId delta w.subs)
  else if 0 < delta then decreaseUserQuota o t.userId delta w
  else increaseUserQuota o t.userId (-delta) w

/-- `taskAdjustTokenQuota`; its errors are logged only, and a token that is gone is skipped. -/
def taskAdjustTokenQuota (o : Outcome) (t : Task) (delta : Int) (w : World) : World :=
  if t.tokenId ≤ 0 ∨ delta = 0 then w
  else
    let adjusted : Except Err (Unit × World) := do
      stmt o .token
      if 0 < delta then decreaseTokenQuota o t.tokenId delta w
      else increaseTokenQuota o t.tokenId (-delta) w
    (transact w adjusted).2

/-- Adjust the funding source and then the token; `false` says that the source refused. -/
def taskAdjust (o : Outcome) (t : Task) (delta : Int) (w : World) : Bool × World :=
  match taskAdjustFunding o t delta w with
  | .error _ => (false, w)
  | .ok (_, w) => (true, taskAdjustTokenQuota o t delta w)

/-- `RefundTaskQuota`: whether it took effect, and the balances. -/
def refundTaskQuota (o : Outcome) (t : Task) (w : World) : Bool × World :=
  if t.quota = 0 then (false, w) else taskAdjust o t (-t.quota) w

/-- No statement that the refund makes on the funding source fails, and a subscription that has
paid for the task is still there and within its total. -/
def Refundable (o : Outcome) (t : Task) (w : World) : Prop :=
  if taskIsSubscription t then
    (o .findSub = none ∧ o .saveSub = none ∧ o .commit = none) ∧
      (w.subs.subs.find? t.subscriptionId).any fun sub =>
        sub.amountTotal ≤ 0 || sub.amountUsed ≤ sub.amountTotal
  else o .userQuota = none

instance (o : Outcome) (t : Task) (w : World) : Decidable (Refundable o t w) := by
  unfold Refundable
  infer_instance

theorem Refundable.takes_effect {o : Outcome} {t : Task} {w : World} (h : Refundable o t w)
    (hQuota : 0 < t.quota) : (refundTaskQuota o t w).1 = true := by
  have hFunding : isOk (taskAdjustFunding o t (-t.quota) w) = true := by
    unfold Refundable at h
    unfold taskAdjustFunding
    split at h
    · rename_i hSub
      obtain ⟨⟨hFind, hSave, hCommit⟩, hRow⟩ := h
      rw [Option.any_eq_true] at hRow
      obtain ⟨sub, hStored, hTotal⟩ := hRow
      have hId : ¬ t.subscriptionId ≤ 0 := by
        simp only [taskIsSubscription, Bool.and_eq_true, decide_eq_true_eq] at hSub
        omega
      have hWithin : ¬ (sub.amountTotal > 0 ∧
          usedAfter sub.amountUsed (-t.quota) > sub.amountTotal) := by
        simp only [Bool.or_eq_true, decide_eq_true_eq] at hTotal
        unfold usedAfter
        omega
      rw [if_pos hSub]
      simp [postConsumeUserSubscriptionDelta, failIf_of_not hId, hQuota.ne', stmt_of_none hFind,
        hStored, found, failIf_of_not hWithin, stmt_of_none hSave, stmt_of_none hCommit,
        World.onSubs, isOk]
    · rename_i hSub
      rw [if_neg hSub, if_neg (by omega), increaseUserQuota, quotaWrite_good (by omega) h]
      rfl
  rw [refundTaskQuota, if_neg hQuota.ne', taskAdjust]
  cases hAdjust : taskAdjustFunding o t (-t.quota) w with
  | ok x => rfl
  | error e =>
    rw [hAdjust] at hFunding
    cases hFunding

/-- `RecalculateTaskQuota`: the task with the quota that was charged in the end, and the
balances. -/
def recalculateTaskQuota (o : Outcome) (t : Task) (actualQuota : Int) (w : World) : Task × World :=
  if actualQuota ≤ 0 ∨ actualQuota - t.quota = 0 then (t, w)
  else
    match taskAdjust o t (actualQuota - t.quota) w with
    | (false, w) => (t, w)
    | (true, w) => ({ t with quota := actualQuota }, w)

def taskModelName (t : Task) : String :=
  match t.billingContext with
  | some bc => if bc.originModelName ≠ "" then bc.originModelName else t.originModelName
  | none => t.originModelName

/-- `OtherRatioMultiplier` of the ratios in the billing context. -/
def otherMultiplier (t : Task) : ℚ :=
  ((t.billingContext.map (·.otherRatios)).getD []).foldl
    (fun m ratio => if 0 < ratio ∧ ratio ≠ 1 then m * ratio else m) 1

/-- The group that the settlement goes by: that of the task, or else that of the user. -/
def settlementGroup (o : Outcome) (t : Task) (w : World) : String :=
  if t.group ≠ "" then t.group
  else match o (.userGroup t.userId) with
    | none => w.subs.groups t.userId
    | some _ => ""

def recalculateTaskQuotaByTokens (cfg : Settings) (o : Outcome) (t : Task) (totalTokens : Int)
    (w : World) : Task × World :=
  let (modelRatio, hasRatioSetting, _) := cfg.modelRatio (taskModelName t)
  let group := settlementGroup o t w
  if totalTokens ≤ 0 ∨ hasRatioSetting = false ∨ modelRatio ≤ 0 ∨ group = "" then (t, w)
  else
    let finalGroupRatio := (groupRatioOf cfg group group).groupRatio
    let actualQuota :=
      quotaFromFloat (totalTokens * modelRatio * finalGroupRatio * otherMultiplier t)
    recalculateTaskQuota o t actualQuota w

/-- `settleTaskBillingOnComplete`; `adjusted` is what the adaptor's `AdjustBillingOnComplete`
returns. -/
def settleTaskBillingOnComplete (cfg : Settings) (o : Outcome) (adjusted totalTokens : Int)
    (t : Task) (w : World) : Task × World :=
  if (t.billingContext.map (·.perCallBilling)).getD false then (t, w)
  else if 0 < adjusted then recalculateTaskQuota o t adjusted w
  else if 0 < totalTokens then recalculateTaskQuotaByTokens cfg o t totalTokens w
  else (t, w)

theorem recalculateTaskQuota_task (o : Outcome) (t : Task) (actualQuota : Int) (w : World) :
    (recalculateTaskQuota o t actualQuota w).1 = t ∨
      0 < actualQuota ∧
        (recalculateTaskQuota o t actualQuota w).1 = { t with quota := actualQuota } := by
  unfold recalculateTaskQuota
  split
  · exact Or.inl rfl
  · rename_i hSkip
    rw [not_or, not_le] at hSkip
    split
    · exact Or.inl rfl
    · exact Or.inr ⟨hSkip.1, rfl⟩

theorem settleTaskBillingOnComplete_task (cfg : Settings) (o : Outcome) (adjusted totalTokens : Int)
    (t : Task) (w : World) :
    (settleTaskBillingOnComplete cfg o adjusted totalTokens t w).1 = t ∨
      ∃ quota, 0 < quota ∧ (settleTaskBillingOnComplete cfg o adjusted totalTokens t w).1 =
        { t with quota := quota } := by
  have hRecalculated : ∀ actualQuota, (recalculateTaskQuota o t actualQuota w).1 = t ∨
      ∃ quota, 0 < quota ∧
        (recalculateTaskQuota o t actualQuota w).1 = { t with quota := quota } := by
    intro actualQuota
    rcases recalculateTaskQuota_task o t actualQuota w with hSame | ⟨hPos, hNew⟩
    · exact Or.inl hSame
    · exact Or.inr ⟨actualQuota, hPos, hNew⟩
  unfold settleTaskBillingOnComplete
  split
  · exact Or.inl rfl
  · split
    · exact hRecalculated adjusted
    · split
      · unfold recalculateTaskQuotaByTokens
        dsimp only
        split
        · exact Or.inl rfl
        · exact hRecalculated _
      · exact Or.inl rfl

def writeQuota (o : Outcome) (row t settled : Task) : Task :=
  if settled.quota ≠ t.quota ∧ o .taskQuota = none then { row with quota := settled.quota }
  else row

@[simp] theorem writeQuota_status (o : Outcome) (row t settled : Task) :
    (writeQuota o row t settled).status = row.status := by
  unfold writeQuota
  split <;> rfl

theorem writeQuota_quota (o : Outcome) (row t settled : Task) :
    (writeQuota o row t settled).quota = row.quota ∨
      (writeQuota o row t settled).quota = settled.quota := by
  unfold writeQuota
  split
  · exact Or.inr rfl
  · exact Or.inl rfl

end Qapi.Async
