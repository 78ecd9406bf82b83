import Qapi.Pricing.Text
import Qapi.Relay.Attempts

/-!
# The group ratio at settlement

A request that is priced, relayed through some attempts and served is settled with
the group ratio of the attempt that served it when it is billed by ratio. The
snapshot of an expression keeps the ratio of the group that was in use when the
request was priced: the expression is settled with that ratio, and the tool calls with
the ratio of the serving group.
-/

namespace Qapi.Relay

open Qapi.Core Pricing Option

variable {Channel : Type}

/-- A request from its pricing to the attempt that served it. Its relay info is new: no
channel has been tried and no snapshot taken. -/
structure ServedRequest (Channel : Type) where
  engine : ExprEngine
  cfg : Settings
  autoGroup : Option String
  input : Except Err RequestInput
  promptTokens : Int
  tokens : TokenCountMeta
  info : PriceInfo
  finalPreConsumedQuota : Int
  ctx : Context
  param : RetryParam
  first : Channel
  attempts : List (Attempt Channel)
  noChannel : info.hasChannelMeta = false
  noSnapshot : info.tieredBillingSnapshot = none

def ServedRequest.priced (r : ServedRequest Channel) : Except Err PriceInfo := do
  let (_, info) ← modelPriceHelper r.engine r.cfg r.autoGroup r.input r.promptTokens r.tokens r.info
  pure { info with finalPreConsumedQuota := r.finalPreConsumedQuota }

def ServedRequest.serve (r : ServedRequest Channel) : Option (Nat × PriceInfo) :=
  match r.priced with
  | .error _ => none
  | .ok info => (relayLoop r.first r.attempts ⟨info, r.ctx, r.param⟩).map fun (k, st) => (k, st.info)

/-- The settings in force when the group of the attempt `k` was resolved; the group of
the first one is resolved when the request is priced. -/
def ServedRequest.settingsAt (r : ServedRequest Channel) : Nat → Settings
  | 0 => r.cfg
  | k + 1 => (r.attempts[k + 1]?.map (·.cfg)).getD r.cfg

def ServedRequest.pricedRatio (r : ServedRequest Channel) : ℚ :=
  (groupRatioOf r.cfg r.info.userGroup (r.autoGroup.getD r.info.usingGroup)).groupRatio

/-- The ratio of the group in use at the attempt `k`, which leaves the relay info `info`. -/
def ServedRequest.servingRatio (r : ServedRequest Channel) (k : Nat) (info : PriceInfo) : ℚ :=
  (groupRatioOf (r.settingsAt k) info.userGroup info.usingGroup).groupRatio

/-! ## Pricing -/

/-- The snapshot of a request that is billed by an expression, frozen with the ratio. -/
structure FrozenAt (ratio : ℚ) (snap : BillingSnapshot) : Prop where
  groupRatio : snap.groupRatio = ratio
  mode : snap.billingMode = "tiered_expr"
  estimate : snap.estimatedQuotaAfterGroup = quotaRound (snap.estimatedQuotaBeforeGroup * ratio)

/-- What pricing leaves in the relay info. -/
structure Priced (r : ServedRequest Channel) (info : PriceInfo) : Prop where
  resolved : Resolved r.cfg info
  usingGroup : info.usingGroup = r.autoGroup.getD r.info.usingGroup
  userGroup : info.userGroup = r.info.userGroup
  first : info.hasChannelMeta = false
  snapshot : ∀ snap, info.tieredBillingSnapshot = some snap → FrozenAt r.pricedRatio snap

variable {info : PriceInfo}

theorem modelPriceHelperTiered_ok {engine : ExprEngine} {cfg : Settings}
    {input : Except Err RequestInput} {promptTokens : Int} {tokens : TokenCountMeta}
    {g : GroupRatioInfo} {info' : PriceInfo} {p : PriceData}
    (h : modelPriceHelperTiered engine cfg input promptTokens tokens g info = .ok (p, info')) :
    ∃ snap requestInput pd, FrozenAt g.groupRatio snap ∧
      pd.groupRatioInfo = g ∧ info' = { info with
        tieredBillingSnapshot := some snap
        billingRequestInput := some requestInput
        priceData := pd } := by
  unfold modelPriceHelperTiered at h
  split at h
  · cases h
  obtain ⟨requestInput, -, h⟩ := of_bind h
  split at h
  · cases h
  · rename_i rawCost tier hCost
    cases h
    refine ⟨_, requestInput, _, ⟨rfl, rfl, ?_⟩, rfl, rfl⟩
    dsimp only
    split
    · rename_i hFree
      have hZero : g.groupRatio = 0 := by simpa using (Bool.and_eq_true_iff.mp hFree).2
      rw [hZero, mul_zero]
      decide +kernel
    · rfl

theorem priced_ok {r : ServedRequest Channel} (h : r.priced = .ok info) : Priced r info := by
  obtain ⟨⟨p, info₁⟩, hPrice, h⟩ := of_bind h
  cases h
  simp only [modelPriceHelper, handleGroupRatio, resolveGroup] at hPrice
  cases hTiered : r.cfg.tieredExprMode r.info.originModelName with
  | true =>
    simp only [hTiered, if_true] at hPrice
    obtain ⟨snap, requestInput, pd, hFrozen, hPd, rfl⟩ := modelPriceHelperTiered_ok hPrice
    refine ⟨hPd, rfl, rfl, r.noChannel, ?_⟩
    intro snap' hSnap
    cases hSnap
    exact hFrozen
  | false =>
    simp only [hTiered, Bool.false_eq_true, if_false] at hPrice
    cases hModel : r.cfg.modelPrice r.info.originModelName with
    | some modelPrice =>
      simp only [hModel] at hPrice
      cases hPrice
      refine ⟨rfl, rfl, rfl, r.noChannel, fun snap hSnap => ?_⟩
      exact absurd (r.noSnapshot.symm.trans hSnap) (by simp)
    | none =>
      simp only [hModel] at hPrice
      obtain ⟨_, -, hPrice⟩ := of_bind hPrice
      cases hPrice
      refine ⟨rfl, rfl, rfl, r.noChannel, fun snap hSnap => ?_⟩
      exact absurd (r.noSnapshot.symm.trans hSnap) (by simp)

/-! ## Settlement -/

/-- The price data that the request is settled with hold the serving group's ratio, and
the snapshot holds that of the group the request was priced for. -/
theorem serve_ratios {r : ServedRequest Channel} {k : Nat} (h : r.serve = some (k, info)) :
    info.priceData.groupRatioInfo.groupRatio = r.servingRatio k info ∧
      ∀ snap, info.tieredBillingSnapshot = some snap → FrozenAt r.pricedRatio snap := by
  unfold ServedRequest.serve at h
  split at h
  · cases h
  rename_i info₁ hPriced
  obtain ⟨⟨k', st⟩, hLoop, hEq⟩ := map_eq_some_iff.mp h
  cases hEq
  have hp := priced_ok hPriced
  obtain ⟨hSame, hCase⟩ := relayLoop_served hLoop
  constructor
  · rcases hCase with ⟨-, rfl, hInfo⟩ | ⟨hRetry, a, ha, hRefreshed⟩
    · rw [hInfo, ServedRequest.servingRatio, ServedRequest.settingsAt]
      exact congrArg GroupRatioInfo.groupRatio hp.resolved
    · have hResolved := congrArg GroupRatioInfo.groupRatio hRefreshed.resolved
      rw [hResolved, ServedRequest.servingRatio]
      cases k with
      | zero =>
        have hMeta := hRetry.resolve_right (lt_irrefl 0)
        exact absurd (hp.first.symm.trans hMeta) (by decide)
      | succ k => simp only [ServedRequest.settingsAt, ha, map_some, getD_some]
  · intro snap hSnap
    exact hp.snapshot snap (hSame.snapshot ▸ hSnap)

def withPriceRatio (info : PriceInfo) (ratio : ℚ) : PriceInfo :=
  { info with
    priceData := { info.priceData with
      groupRatioInfo := { info.priceData.groupRatioInfo with groupRatio := ratio } } }

theorem withPriceRatio_self {ratio : ℚ} (h : info.priceData.groupRatioInfo.groupRatio = ratio) :
    withPriceRatio info ratio = info := by
  subst h
  rfl

def settledExpr (engine : ExprEngine) (ctx : TextContext) (info : PriceInfo)
    (snap : BillingSnapshot) (u : Usage) : Except Err (ℚ × String) :=
  engine.runExpr snap.exprString
    (buildTieredTokenParams u (usageSemanticFromUsage ctx (some u) == "anthropic")
      (engine.usedVars snap.exprString))
    (info.billingRequestInput.getD ⟨[], ""⟩)

theorem textQuota_tiered {engine : ExprEngine} {ctx : TextContext} {snap : BillingSnapshot}
    {u : Usage} {cost : ℚ} {tier : String} (hSnap : info.tieredBillingSnapshot = some snap)
    (hMode : snap.billingMode = "tiered_expr")
    (hRun : settledExpr engine ctx info snap u = .ok (cost, tier)) :
    textQuota engine ctx info (some u) = quotaFromDecimal
      (cost / 1000000 * snap.quotaPerUnit * snap.groupRatio +
        calculateTextToolCallSurcharge ctx info.originModelName
          info.priceData.groupRatioInfo.groupRatio) := by
  have hCompute : computeTieredQuotaWithRequest engine snap
      (buildTieredTokenParams u (usageSemanticFromUsage ctx (some u) == "anthropic")
        (engine.usedVars snap.exprString)) (info.billingRequestInput.getD ⟨[], ""⟩) =
      .ok ⟨cost / 1000000 * snap.quotaPerUnit,
        quotaRound (cost / 1000000 * snap.quotaPerUnit * snap.groupRatio), tier,
        tier != snap.estimatedTier⟩ := by
    have hRun' := hRun
    unfold settledExpr at hRun'
    simp only [computeTieredQuotaWithRequest, hRun', ok_bind, pure_eq_ok]
  simp only [textQuota, calculateTextQuotaSummary, hSnap, map_some, getD_some,
    tryTieredSettle, hMode, ne_eq, not_true_eq_false, if_false, hCompute, composeTieredTextQuota]
  split
  · rename_i hZero
    rw [hZero, add_zero]
    rfl
  · rfl

/-- What is settled for an expression that cannot be evaluated: the quota that was pre-consumed,
or the estimate of the snapshot. -/
def frozenQuota (info : PriceInfo) (snap : BillingSnapshot) : Int :=
  if info.finalPreConsumedQuota ≤ 0 then snap.estimatedQuotaAfterGroup
  else info.finalPreConsumedQuota

theorem textQuota_failed {engine : ExprEngine} {ctx : TextContext} {snap : BillingSnapshot}
    {u : Usage} {e : Err} (hSnap : info.tieredBillingSnapshot = some snap)
    (hMode : snap.billingMode = "tiered_expr")
    (hRun : settledExpr engine ctx info snap u = .error e) :
    textQuota engine ctx info (some u) =
      let surcharge := calculateTextToolCallSurcharge ctx info.originModelName
        info.priceData.groupRatioInfo.groupRatio
      if surcharge = 0 then frozenQuota info snap
      else quotaFromDecimal (frozenQuota info snap + surcharge) := by
  have hCompute : computeTieredQuotaWithRequest engine snap
      (buildTieredTokenParams u (usageSemanticFromUsage ctx (some u) == "anthropic")
        (engine.usedVars snap.exprString)) (info.billingRequestInput.getD ⟨[], ""⟩) =
      .error e := by
    unfold settledExpr at hRun
    simp only [computeTieredQuotaWithRequest, hRun, error_bind]
  simp only [textQuota, calculateTextQuotaSummary, hSnap, map_some, getD_some,
    tryTieredSettle, hMode, ne_eq, not_true_eq_false, if_false, hCompute, composeTieredTextQuota]
  rfl

/-- A request that is billed by ratio is settled with the ratio of the group that
served it. One that is billed by an expression is settled at the sum of two parts: the
expression with the ratio that its snapshot froze when it was priced, and the tool calls
with the ratio of the group that served it. -/
theorem settled_with_group_ratio {r : ServedRequest Channel} {k : Nat} {info : PriceInfo}
    (h : r.serve = some (k, info)) (ctx : TextContext) (u : Usage) :
    (info.tieredBillingSnapshot = none →
      textQuota r.engine ctx info (some u) = (calculateTextQuotaSummary ctx
        (withPriceRatio info (r.servingRatio k info)) (some u)).quota) ∧
    ∀ snap, info.tieredBillingSnapshot = some snap →
      let surcharge :=
        calculateTextToolCallSurcharge ctx info.originModelName 1 * r.servingRatio k info
      FrozenAt r.pricedRatio snap ∧
        match settledExpr r.engine ctx info snap u with
        | .ok (cost, _) => textQuota r.engine ctx info (some u) = quotaFromDecimal
            (cost / 1000000 * snap.quotaPerUnit * r.pricedRatio + surcharge)
        | .error _ => textQuota r.engine ctx info (some u) =
            if surcharge = 0 then frozenQuota info snap
            else quotaFromDecimal (frozenQuota info snap + surcharge) := by
  obtain ⟨hServing, hFrozen⟩ := serve_ratios h
  constructor
  · intro hNone
    rw [withPriceRatio_self hServing]
    simp [textQuota, tryTieredSettle, hNone]
  · intro snap hSnap surcharge
    have hAt := hFrozen snap hSnap
    have hSurcharge : calculateTextToolCallSurcharge ctx info.originModelName
        info.priceData.groupRatioInfo.groupRatio = surcharge := by
      rw [surcharge_ratio, hServing]
    refine ⟨hAt, ?_⟩
    split
    · rename_i cost tier hRun
      rw [textQuota_tiered hSnap hAt.mode hRun, hAt.groupRatio, hSurcharge]
    · rename_i e hRun
      rw [textQuota_failed hSnap hAt.mode hRun, hSurcharge]

/-! ## A request that moves to another group -/

def sampleSettings : Settings :=
  { unitSettings with
    groupRatio := fun g => if g = "basic" then some 1 else if g = "premium" then some 2 else none
    billingExpr := fun _ => some "p * 2"
    tieredExprMode := fun _ => true
    enableFreeModelPreConsume := true }

def sampleAttempt (group : String) (handler : Option Err) : Attempt Unit where
  cfg := sampleSettings
  select :=
    { autoGroupsEnabled := true
      autoGroups := ["basic", "premium"]
      retryTimes := 3
      getRandomSatisfiedChannel := fun g _ => .ok (if g = group then some () else none) }
  setup := none
  body := none
  handler := handler
  shouldRetry := true

def switching : ServedRequest Unit where
  engine := ⟨fun _ t _ => .ok (t.p * 2, ""), fun _ => []⟩
  cfg := sampleSettings
  autoGroup := some "basic"
  input := .ok ⟨[], ""⟩
  promptTokens := 1000
  tokens := ⟨100, 0⟩
  info :=
    { userId := 1
      isAdmin := false
      userGroup := "default"
      usingGroup := "auto"
      originModelName := "model"
      acceptUnsetRatioModel := false
      finalPreConsumedQuota := 0
      priceData := .zero
      tieredBillingSnapshot := none
      billingRequestInput := none
      hasChannelMeta := false }
  finalPreConsumedQuota := 0
  ctx := ⟨some "basic", some 0, true⟩
  param := ⟨"auto", 0, false⟩
  first := ()
  attempts := [sampleAttempt "basic" (some (.msg "upstream error")), sampleAttempt "premium" none]
  noChannel := rfl
  noSnapshot := rfl

def quietContext : TextContext := ⟨sampleSettings, false, false, 0, none, 0, none⟩

def millionTokens : Usage := { Usage.estimated 1000000 with completionTokens := 1 }

theorem switching_settled_with_priced_ratio :
    ∃ k info snap cost tier, switching.serve = some (k, info) ∧
      info.tieredBillingSnapshot = some snap ∧
      settledExpr switching.engine quietContext info snap millionTokens = .ok (cost, tier) ∧
      textQuota switching.engine quietContext info (some millionTokens) =
        quotaFromDecimal (cost / 1000000 * snap.quotaPerUnit * switching.pricedRatio +
          calculateTextToolCallSurcharge quietContext info.originModelName 1 *
            switching.servingRatio k info) := by
  have hServed : (switching.serve.bind fun (_, info) => info.tieredBillingSnapshot).isSome := by
    decide
  rcases hServe : switching.serve with _ | ⟨k, info⟩
  · rw [hServe] at hServed
    cases hServed
  rcases hSnap : info.tieredBillingSnapshot with _ | snap
  · simp [hServe, hSnap] at hServed
  exact ⟨k, info, snap, _, _, rfl, hSnap, rfl,
    ((settled_with_group_ratio hServe quietContext millionTokens).2 snap hSnap).2⟩

/-- The quota that a request is settled at, and the one it has with the ratio of the
serving group in both parts. -/
def settledAndDue (r : ServedRequest Channel) (ctx : TextContext) (u : Usage) :
    Option (Int × Int) := do
  let (k, info) ← r.serve
  let snap ← info.tieredBillingSnapshot
  match settledExpr r.engine ctx info snap u with
  | .error _ => none
  | .ok (cost, _) =>
    let surcharge := calculateTextToolCallSurcharge ctx info.originModelName 1
    some (textQuota r.engine ctx info (some u),
      quotaFromDecimal ((cost / 1000000 * snap.quotaPerUnit + surcharge) * r.servingRatio k info))

/-- The second group served the request, which is settled at half its price. -/
theorem switching_settled_at_half :
    settledAndDue switching quietContext millionTokens = some (1000000, 2000000) := by
  decide +kernel

end Qapi.Relay
