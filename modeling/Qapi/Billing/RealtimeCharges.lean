import Qapi.Billing.Realtime

/-!
# What a realtime session is charged

Each event of a realtime session takes its charge from the source, on top of what was
pre-consumed, and the settlement adds the difference between the settled quota and
the pre-consumed one. So the session is charged the settled quota exactly when no
event took anything.
-/

namespace Qapi.Billing

open Qapi.Core Subscription BillingSession Pricing Option

/-! ## One charge -/

/-- The source that `PostConsumeQuota` charges. -/
def sourceOf (info : RelayInfo) : Funding :=
  if info.billingSource = .subscription then
    .subscription { newSubscriptionFunding info 0 with subscriptionId := info.subscriptionId }
  else .wallet info.userId 0

/-- The relay infos name the same source and the same pre-consumed quota. -/
structure SamePayer (i j : RelayInfo) : Prop where
  source : sourceOf j = sourceOf i
  finalPreConsumedQuota : j.finalPreConsumedQuota = i.finalPreConsumedQuota

theorem SamePayer.refl (i : RelayInfo) : SamePayer i i := ⟨rfl, rfl⟩

theorem SamePayer.trans {i j k : RelayInfo} (h : SamePayer i j) (h' : SamePayer j k) :
    SamePayer i k :=
  ⟨h'.source.trans h.source, h'.finalPreConsumedQuota.trans h.finalPreConsumedQuota⟩

variable {quota : Int} {w : World}

theorem chargeSource_moves {o : Outcome} {info info' : RelayInfo} {w' : World}
    (hw : w.subs.AllRows InBounds) (hQuota : 0 ≤ quota)
    (h : chargeSource o info quota w = .ok (info', w')) :
    Moves (sourceOf info) quota w w' ∧ SamePayer info info' := by
  unfold chargeSource at h
  split at h
  · rename_i hSource
    split at h
    · cases h
    split at h
    · rename_i hZero
      cases h
      subst hZero
      exact ⟨moves_refl _ w, .refl info⟩
    · obtain ⟨⟨u, w₁⟩, hPost, h⟩ := of_bind h
      cases h
      refine ⟨?_, rfl, rfl⟩
      rw [sourceOf, if_pos hSource]
      exact moves_postConsume (unclamped_of_nonneg hw hQuota) hPost
  · rename_i hSource
    obtain ⟨⟨u, w₁⟩, hWrite, h⟩ := of_bind h
    cases h
    refine ⟨?_, .refl info⟩
    rw [sourceOf, if_neg hSource]
    unfold chargeUser at hWrite
    split at hWrite
    · rw [quotaWrite_ok hWrite]
      exact moves_addUser info.userId 0 quota w
    · rw [quotaWrite_ok hWrite]
      exact moves_addUser info.userId 0 quota w

/-- The payer and the balances after some charges: the source is used by `x`, and the
payer has not changed but for what its relay info shows. -/
structure PayInv (p₀ : Payer) (x : Int) (p : Payer) (w : World) : Prop where
  used : fundingUsed (sourceOf p₀.info) w = some x
  bounds : w.subs.AllRows InBounds
  payer : ∃ info, p = p₀.setInfo info ∧ SamePayer p₀.info info

@[simp] theorem Payer.info_setInfo (p : Payer) (info : RelayInfo) : (p.setInfo info).info = info := by
  cases p <;> rfl

@[simp] theorem Payer.setInfo_setInfo (p : Payer) (i j : RelayInfo) :
    (p.setInfo i).setInfo j = p.setInfo j := by
  cases p <;> rfl

variable {p : Payer} {x : Int}

theorem PayInv.refl (hw : w.subs.AllRows InBounds) (h : fundingUsed (sourceOf p.info) w = some x) :
    PayInv p x p w :=
  ⟨h, hw, p.info, by cases p <;> rfl, .refl p.info⟩

variable {p₀ : Payer}

theorem PayInv.source (h : PayInv p₀ x p w) : sourceOf p.info = sourceOf p₀.info := by
  obtain ⟨info, rfl, hSame⟩ := h.payer
  rw [Payer.info_setInfo]
  exact hSame.source

variable {req : RealtimeRequest}

theorem wssQuota_nonneg (hReq : req.ByRatio) (c : ChargeSteps) (usage : RealtimeUsage) :
    0 ≤ wssQuota req c usage :=
  calculateAudioQuota_nonneg c.cfg hReq.relayInfo

theorem preWssCheck_ok {c : ChargeSteps} {usage : RealtimeUsage} {info : RelayInfo}
    (h : preWssCheck req c usage info w = .ok quota) : quota = wssQuota req c usage := by
  obtain ⟨userQuota, -, h⟩ := of_bind h
  replace h := of_seq h
  replace h := of_seq h
  replace h := of_seq h
  cases h
  rfl

theorem wssCharge_nonneg (hReq : req.ByRatio) (c : ChargeSteps) (usage : RealtimeUsage)
    (p : Payer) (w : World) : 0 ≤ wssCharge req c usage p w := by
  unfold wssCharge
  rw [hReq.relayInfo]
  simp only [Bool.false_eq_true, if_false]
  split
  · exact le_refl 0
  · rename_i quota hCheck
    split
    · rw [preWssCheck_ok hCheck]
      exact wssQuota_nonneg hReq c usage
    · exact le_refl 0

theorem preWss_payInv (hReq : req.ByRatio) (c : ChargeSteps) (usage : RealtimeUsage)
    (h : PayInv p₀ x p w) :
    PayInv p₀ (x + wssCharge req c usage p w) (preWssConsumeQuota req c usage p w).2.1
      (preWssConsumeQuota req c usage p w).2.2 := by
  unfold wssCharge preWssConsumeQuota
  rw [hReq.relayInfo]
  simp only [Bool.false_eq_true, if_false]
  rcases hCheck : preWssCheck req c usage p.info w with e | quota
  · simpa using h
  have hQuota : 0 ≤ quota := preWssCheck_ok hCheck ▸ wssQuota_nonneg hReq c usage
  dsimp only
  unfold postConsumeQuota
  rcases hCharge : chargeSource c.post.funding p.info quota w with e | ⟨info', w₁⟩
  · obtain ⟨info, rfl, hSame⟩ := h.payer
    simpa using ⟨h.used, h.bounds, info, rfl, hSame⟩
  obtain ⟨hMoves, hSame⟩ := chargeSource_moves h.bounds hQuota hCharge
  obtain ⟨y, hy, -⟩ := adjustToken_world c.post.token p.info quota w₁
  rw [h.source] at hMoves
  simp only [isOk_ok, if_true, hy]
  refine ⟨?_, hMoves.bounds h.bounds, info', ?_⟩
  · rw [fundingUsed_addToken, hMoves.used, h.used, map_some]
  · obtain ⟨info, rfl, hSame'⟩ := h.payer
    rw [Payer.info_setInfo] at hSame
    exact ⟨Payer.setInfo_setInfo _ _ _, hSame'.trans hSame⟩

/-! ## The events -/

theorem wssStepCharge_nonneg (hReq : req.ByRatio) (st : Wss) (a : WssAction) :
    0 ≤ wssStepCharge req st a := by
  unfold wssStepCharge
  split
  · exact le_refl 0
  · exact wssCharge_nonneg hReq _ _ _ _

theorem wssStep_pays (req : RealtimeRequest) (st : Wss) (a : WssAction) :
    ((wssStep req st a).payer, (wssStep req st a).world) =
      match wssCall st a with
      | none => (st.payer, st.world)
      | some (usage, c) => (preWssConsumeQuota req c usage st.payer st.world).2 := by
  cases a with
  | client => rfl
  | upstream =>
    simp only [wssStep, wssCall]
    split <;> rfl
  | responseDone usage c =>
    simp only [wssStep, wssCall, preConsumeUsage]
    split
    · rcases (preWssConsumeQuota req c (st.usage.add usage) st.payer st.world).1 with e | u <;> rfl
    · rfl
  | responseCounted text audio c =>
    simp only [wssStep, wssCall, preConsumeUsage]
    split
    · rcases (preWssConsumeQuota req c (st.localUsage.add (.input text audio)) st.payer
        st.world).1 with e | u <;> rfl
    · rfl
  | flushUsage c | flushLocal c =>
    simp only [wssStep, wssCall, preConsumeUsage]
    split <;> rfl

theorem wssStep_payInv (hReq : req.ByRatio) (x : Int) (st : Wss) (a : WssAction)
    (h : PayInv p₀ x st.payer st.world) :
    PayInv p₀ (x + wssStepCharge req st a) (wssStep req st a).payer (wssStep req st a).world := by
  have hPays := wssStep_pays req st a
  unfold wssStepCharge
  cases hCall : wssCall st a with
  | none =>
    simp only [hCall, Prod.mk.injEq] at hPays
    rw [hPays.1, hPays.2, add_zero]
    exact h
  | some call =>
    have hNext := preWss_payInv hReq call.2 call.1 h
    simp only [hCall] at hPays
    rwa [← hPays] at hNext

/-! ## The settlement -/

def Payer.preConsumed : Payer → Int
  | .free info => info.finalPreConsumedQuota
  | .session s => s.preConsumedQuota

/-- The payer has not been settled, and its relay info names the source of its session. -/
def Payer.Unsettled : Payer → Prop
  | .free info => info.finalPreConsumedQuota = 0
  | .session s => s.settled = false ∧ s.fundingSettled = false ∧ InfoMatches s

variable {s : BillingSession}

theorem sourceOf_sameSource (h : InfoMatches s) : SameSource s.funding (sourceOf s.relayInfo) := by
  obtain ⟨hSource, hPayer⟩ := h
  unfold sourceOf
  cases hf : s.funding with
  | wallet userId consumed =>
    simp only [hf, Funding.source] at hSource hPayer
    rw [if_neg (by simp [hSource]), hPayer]
    exact ⟨fun _ => rfl, fun _ => rfl⟩
  | subscription f =>
    simp only [hf, Funding.source] at hSource hPayer
    rw [if_pos hSource]
    refine ⟨fun w => ?_, fun _ => rfl⟩
    simp only [fundingUsed, hPayer]

theorem settleFree_used {o : SettleSteps} {info : RelayInfo}
    (hPre : info.finalPreConsumedQuota = 0) (hQuota : 0 ≤ quota) (hw : w.subs.AllRows InBounds)
    (hUsed : fundingUsed (sourceOf info) w = some x)
    (hAccepted : settlementAccepted o quota (.free info) w = true) :
    fundingUsed (sourceOf info) (settleBilling o quota (.free info) w) = some (x + quota) := by
  simp only [settlementAccepted, settleBilling, hPre, sub_zero] at hAccepted ⊢
  by_cases hZero : quota = 0
  · simpa [hZero] using hUsed
  simp only [ne_eq, hZero, not_false_eq_true, if_true, decide_false, Bool.false_or,
    postConsumeQuota] at hAccepted ⊢
  rcases hCharge : chargeSource o.funding info quota w with e | ⟨info', w₁⟩
  · rw [hCharge] at hAccepted
    cases hAccepted
  obtain ⟨hMoves, -⟩ := chargeSource_moves hw hQuota hCharge
  obtain ⟨y, hy, -⟩ := adjustToken_world o.token info quota w₁
  simp only [hy, fundingUsed_addToken, hMoves.used, hUsed, map_some]

theorem settleSession_used {o : SettleSteps} (hOpen : s.settled = false)
    (hFunding : s.fundingSettled = false) (hw : w.subs.AllRows InBounds)
    (hUsed : fundingUsed s.funding w = some x)
    (hAccepted : settlementAccepted o quota (.session s) w = true) :
    fundingUsed s.funding (settleBilling o quota (.session s) w) =
      some (floored s.funding (x + (quota - s.preConsumedQuota))) := by
  simp only [settlementAccepted, settleBilling] at hAccepted ⊢
  rcases hRes : settle o quota ⟨s, w⟩ with ⟨res, st'⟩
  rcases settle_cases hOpen hFunding hw hRes with
    ⟨hEffect, -, -⟩ | ⟨-, s', w₁, y, rfl, -, hSettles, -⟩
  · exact absurd (hEffect.symm.trans hAccepted) (by decide)
  · simp only [fundingUsed_addToken, hSettles.used, hUsed, map_some]

theorem settleBilling_used {o : SettleSteps} (hp₀ : p₀.Unsettled) (hQuota : 0 ≤ quota)
    (h : PayInv p₀ x p w) (hAccepted : settlementAccepted o quota p w = true) :
    fundingUsed (sourceOf p₀.info) (settleBilling o quota p w) =
      some (floored (sourceOf p₀.info) (x + (quota - p₀.preConsumed))) ∨
    fundingUsed (sourceOf p₀.info) (settleBilling o quota p w) =
      some (x + (quota - p₀.preConsumed)) := by
  obtain ⟨info', rfl, hInfo'⟩ := h.payer
  cases p₀ with
  | free info =>
    have hPre : info.finalPreConsumedQuota = 0 := hp₀
    have hUsed := h.used
    rw [← hInfo'.source] at hUsed ⊢
    rw [Payer.preConsumed, hPre, sub_zero]
    exact Or.inr (settleFree_used (hInfo'.finalPreConsumedQuota.trans hPre) hQuota h.bounds hUsed
      hAccepted)
  | session s =>
    obtain ⟨hOpen, hFunding, hInfo⟩ := hp₀
    have hSame : SameSource s.funding (sourceOf s.relayInfo) := sourceOf_sameSource hInfo
    have hUsed : fundingUsed s.funding w = some x := by
      rw [hSame.used]
      exact h.used
    have hSettled := settleSession_used (s := { s with relayInfo := info' })
      hOpen hFunding h.bounds hUsed hAccepted
    rw [hSame.used, hSame.floor] at hSettled
    exact Or.inl hSettled

/-! ## Charged once -/

/-- How a realtime session starts: for a free model nothing is pre-consumed, and
otherwise a billing session is opened for a request that was not recorded before. The
source was used by `b` before. -/
inductive StartsFrom (env : BillingEnv) (w : World) : Payer → World → Int → Prop
  | free (info : RelayInfo) (hPre : info.finalPreConsumedQuota = 0)
      (hSource : info.billingSource = .unset) :
      StartsFrom env w (.free info) w (-w.users info.userId)
  | session {o : OpenSteps} {info : RelayInfo} {quota : Int} {s : BillingSession} {w₁ : World}
      {b : Int} (hNew : newBillingSession env o info quota w = (.ok s, w₁))
      (hFresh : w.subs.records.find? info.requestId = none) (hBefore : UsedBefore env s w b) :
      StartsFrom env w (.session s) w₁ b

theorem UsedBefore.unique {env : BillingEnv} {b b' : Int} (h : UsedBefore env s w b)
    (h' : UsedBefore env s w b') : b = b' := by
  unfold UsedBefore at h h'
  cases hf : s.funding with
  | wallet userId consumed =>
    simp only [hf] at h h'
    exact h.trans h'.symm
  | subscription f =>
    simp only [hf] at h h'
    obtain ⟨sub, d, hSub, ⟨plan, hPlan, hd⟩, rfl⟩ := h
    obtain ⟨sub', d', hSub', ⟨plan', hPlan', hd'⟩, rfl⟩ := h'
    rw [hSub] at hSub'
    cases hSub'
    rw [hPlan] at hPlan'
    cases hPlan'
    rw [hd] at hd'
    cases hd'
    rfl

/-- What a realtime session starts with. -/
structure StartInv (p : Payer) (w : World) (b : Int) : Prop where
  unsettled : p.Unsettled
  pays : PayInv p (b + max p.preConsumed 0) p w
  room : ∀ f, sourceOf p.info = .subscription f → 0 ≤ b ∧ 0 ≤ p.preConsumed

theorem startInv {env : BillingEnv} {w₁ : World} {b : Int} (hw : Reachable w.subs)
    (h : StartsFrom env w p w₁ b) : StartInv p w₁ b := by
  cases h with
  | free info hPre hSource =>
    have hWallet : sourceOf info = .wallet info.userId 0 := by simp [sourceOf, hSource]
    refine ⟨hPre, .refl hw.inBounds ?_, ?_⟩
    · simp [Payer.info, Payer.preConsumed, hWallet, fundingUsed, hPre]
    · intro f hf
      simp [Payer.info, hWallet] at hf
  | @session o info quota s _ _ hNew hFresh hBefore =>
    obtain ⟨w₀, hUndone, hTry⟩ := newBillingSession_try hNew
    have hBounds : w₀.subs.AllRows InBounds := hUndone.subs ▸ hw.inBounds
    have hStarted : ∃ b', Started env s w₀ w₁ b' := by
      rcases hTry with hTry | hTry
      · exact tryWallet_started hBounds hTry
      · exact trySubscription_started hBounds (hUndone.subs ▸ hFresh) hTry
    obtain ⟨b', hs⟩ := hStarted
    obtain rfl : b = b' := hBefore.unique (hs.before.of_undone hUndone)
    have hSame := sourceOf_sameSource hs.info
    refine ⟨⟨hs.settled, hs.fundingSettled, hs.info⟩, .refl hs.bounds ?_, ?_⟩
    · exact (hSame.used w₁).symm.trans hs.used
    · intro f hf
      have hSource : s.funding.source = .subscription := by
        rw [← hs.info.1]
        by_contra hNot
        simp [Payer.info, sourceOf, hNot] at hf
      exact ⟨hs.base hSource, hs.nonneg hSource⟩

/-- A realtime session that is billed by ratio, with a settlement that is accepted: the
source is out of the quota that is settled and logged exactly when the pre-consumed
quota is not negative and no event of the session took anything. -/
theorem realtime_charged_once_iff {env : BillingEnv} {w w₁ : World} {p : Payer} {b : Int}
    (hw : Reachable w.subs) (hStart : StartsFrom env w p w₁ b) {req : RealtimeRequest}
    (hReq : req.ByRatio) (events : List WssAction) (c₁ c₂ : ChargeSteps) (cfg : Settings)
    (o : SettleSteps) :
    let l := wssActions events c₁ c₂
    let st := run (wssStep req) (.start p w₁) l
    let quota := postWssQuota req cfg st.sumUsage st.payer.info
    settlementAccepted o quota st.payer st.world = true →
      (fundingUsed (sourceOf p.info) (settleBilling o quota st.payer st.world) = some (b + quota) ↔
        0 ≤ p.preConsumed ∧
          Guarded (wssStep req) (fun st a => wssStepCharge req st a = 0) (.start p w₁) l) := by
  intro l st quota hAccepted
  have hs := startInv hw hStart
  have hPays : PayInv p (b + max p.preConsumed 0 +
      runCost (wssStep req) (wssStepCharge req) (.start p w₁) l) st.payer st.world :=
    runCost_invariant (I := fun x (st : Wss) => PayInv p x st.payer st.world)
      (wssStep_payInv hReq) hs.pays l
  have hCost : 0 ≤ runCost (wssStep req) (wssStepCharge req) (.start p w₁) l :=
    runCost_nonneg (wssStepCharge_nonneg hReq) _ _
  have hQuota : 0 ≤ quota := postWssQuota_nonneg hReq cfg _ _
  rw [← runCost_eq_zero_iff (wssStepCharge_nonneg hReq)]
  generalize runCost (wssStep req) (wssStepCharge req) (.start p w₁) l = cost at hPays hCost ⊢
  have hFloor : floored (sourceOf p.info)
      (b + max p.preConsumed 0 + cost + (quota - p.preConsumed)) =
      b + max p.preConsumed 0 + cost + (quota - p.preConsumed) := by
    cases hf : sourceOf p.info with
    | wallet userId consumed => rfl
    | subscription f =>
      obtain ⟨hb, hPre⟩ := hs.room f hf
      exact max_eq_left (by omega)
  have hUsed : fundingUsed (sourceOf p.info) (settleBilling o quota st.payer st.world) =
      some (b + max p.preConsumed 0 + cost + (quota - p.preConsumed)) := by
    rcases settleBilling_used hs.unsettled hQuota hPays hAccepted with h | h
    · rw [h, hFloor]
    · exact h
  rw [hUsed, some.injEq]
  omega

/-! ## A response of ten tokens -/

def unitRequest (groupRatio : ℚ) : RealtimeRequest where
  engine := ⟨fun _ _ _ => .error (.msg ""), fun _ => []⟩
  price :=
    { userId := 1
      isAdmin := false
      userGroup := "default"
      usingGroup := "default"
      originModelName := "realtime"
      acceptUnsetRatioModel := false
      finalPreConsumedQuota := 0
      priceData := { PriceData.zero with modelRatio := 1, groupRatioInfo := ⟨groupRatio, -1, false⟩ }
      tieredBillingSnapshot := none
      billingRequestInput := none
      hasChannelMeta := true }
  autoGroup := none
  upstreamModelName := "realtime"
  usePrice := false

def smoothCharge (groupRatio : ℚ) : ChargeSteps :=
  ⟨{ unitSettings with groupRatio := fun _ => some groupRatio }, sampleEnv, true, .good,
    ⟨.good, .good⟩⟩

def tenTokens : RealtimeUsage := .output 10 0

/-- The token cannot be read, so `PreWssConsumeQuota` fails. -/
def refusedCharge : ChargeSteps :=
  { smoothCharge 1 with
    read := fun s => if s = .token then some (.msg "database is locked") else none }

/-- The session after one response of ten tokens whose charge is refused, with the quota that is
settled for it. -/
def refusedSession (p : Payer) (w : World) : Wss × Int :=
  let st := run (wssStep (unitRequest 1)) (.start p w)
    (wssActions [.responseDone tenTokens refusedCharge] refusedCharge refusedCharge)
  (st, postWssQuota (unitRequest 1) refusedCharge.cfg st.sumUsage st.payer.info)

/-- A session that pre-consumes 50 of 300 units. -/
def walletOpening : Except APIError BillingSession × World :=
  newBillingSession sampleEnv smoothOpening (sampleInfo "wallet_only") 50 (sampleWorld 300)

/-- The tokens of the refused response are counted again when the session ends, and the wallet is
out of what is settled for them. -/
theorem refused_session_charged_once :
    ∃ s w₁, walletOpening = (.ok s, w₁) ∧ s.funding = .wallet 1 50 ∧
      (refusedSession (.session s) w₁).2 = 20 ∧
      fundingUsed (sourceOf s.relayInfo) (settleBilling ⟨.good, .good⟩ 20
        (refusedSession (.session s) w₁).1.payer (refusedSession (.session s) w₁).1.world) =
          some (-300 + 20) := by
  have hRun : (walletOpening.1.toOption.any fun s =>
      let r := refusedSession (.session s) walletOpening.2
      decide (s.funding = .wallet 1 50 ∧ r.2 = 20 ∧ 0 ≤ (Payer.session s).preConsumed ∧
        settlementAccepted ⟨.good, .good⟩ r.2 r.1.payer r.1.world = true ∧
        Guarded (wssStep (unitRequest 1)) (fun st a => wssStepCharge (unitRequest 1) st a = 0)
          (.start (.session s) walletOpening.2)
          (wssActions [.responseDone tenTokens refusedCharge] refusedCharge refusedCharge))) =
      true := by
    decide +kernel
  rcases h : walletOpening with ⟨e | s, w₁⟩
  · rw [h] at hRun
    cases hRun
  · rw [h] at hRun
    obtain ⟨hFunding, hQuota, hPre, hAccepted, hCharges⟩ := of_decide_eq_true hRun
    have hBefore : UsedBefore sampleEnv s (sampleWorld 300) (-300) := by
      simp [UsedBefore, hFunding, sampleWorld]
    have hOnce := (realtime_charged_once_iff purchased_reachable (.session h rfl hBefore)
      ⟨rfl, rfl, rfl⟩ _ _ _ _ _ hAccepted).mpr ⟨hPre, hCharges⟩
    refine ⟨s, w₁, rfl, hFunding, hQuota, ?_⟩
    rw [← hQuota]
    exact hOnce

/-- What the wallet of user 1 is out of after a session with one response of ten tokens,
and the quota that is settled for it. -/
def takenAndSettled (c : ChargeSteps) : Option (Int × Int) := do
  let T ← sampleSession "wallet_only" 50 (sampleWorld 300)
  let req := unitRequest 1
  let st := run (wssStep req) (.start (.session T.st.session) T.st.world)
    (wssActions [.responseDone tenTokens c] c c)
  let quota := postWssQuota req c.cfg st.sumUsage st.payer.info
  some (300 - (settleBilling ⟨.good, .good⟩ quota st.payer st.world).users 1, quota)

/-- The ten tokens are charged when the response is done and again at the settlement. -/
theorem response_charged_twice : takenAndSettled (smoothCharge 1) = some (20, 10) := by
  decide +kernel

end Qapi.Billing
