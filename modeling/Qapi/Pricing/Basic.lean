import Mathlib.Tactic.Linarith
import Qapi.Core.Numbers
import Qapi.Core.Result

/-!
# Prices and ratios

`common/quota_math.go`, the ratio settings, and `relay/helper/price.go`: what a
request will cost is estimated before it is relayed, and everything its settlement
needs later is written down in the price data and, for a model that is billed by an
expression, in a snapshot.

Prices, ratios and quotas before rounding are exact rationals. The billing
expressions are a parameter.
-/

namespace Qapi.Pricing

open Qapi.Core

/-! ## Quota conversions -/

def maxQuota : Int := 2147483647

def minQuota : Int := -2147483648

/-- `saturateQuota`, without the audit record. -/
def saturateQuota (value : Int) : Int := saturate minQuota maxQuota value

def quotaFromFloat (value : ℚ) : Int := saturateQuota (truncate value)

def quotaRound (value : ℚ) : Int := saturateQuota (roundHalfAway value)

def quotaFromDecimal (d : ℚ) : Int := saturateQuota (roundHalfAway d)

theorem quotaFromDecimal_nonneg {d : ℚ} (h : 0 ≤ d) : 0 ≤ quotaFromDecimal d :=
  saturate_nonneg (by decide) (roundHalfAway_nonneg h) (by decide)

/-! ## Settings -/

/-- The maps of `ratio_setting`, the tool prices and the switches that pricing
reads, at one moment. A lookup by model name gives what the getter of that name
returns. -/
structure Settings where
  groupRatio : String → Option ℚ
  groupGroupRatio : String → String → Option ℚ
  modelPrice : String → Option ℚ
  modelRatio : String → ℚ × Bool × String
  completionRatio : String → ℚ
  cacheRatio : String → ℚ
  createCacheRatio : String → ℚ
  imageRatio : String → ℚ
  audioRatio : String → ℚ
  audioCompletionRatio : String → ℚ
  defaultModelRatio : String → Option ℚ
  geminiInputAudioPrice : String → ℚ
  toolPrice : String → ℚ
  toolPriceForModel : String → String → ℚ
  gptImage1PriceOnceCall : String → String → ℚ
  billingExpr : String → Option String
  tieredExprMode : String → Bool
  quotaPerUnit : ℚ
  preConsumedQuota : Int
  enableFreeModelPreConsume : Bool

def Settings.getGroupRatio (cfg : Settings) (name : String) : ℚ := (cfg.groupRatio name).getD 1

structure GroupRatioInfo where
  groupRatio : ℚ
  groupSpecialRatio : ℚ
  hasSpecialRatio : Bool
deriving DecidableEq, Repr

def groupRatioOf (cfg : Settings) (userGroup usingGroup : String) : GroupRatioInfo :=
  match cfg.groupGroupRatio userGroup usingGroup with
  | some ratio => ⟨ratio, ratio, true⟩
  | none => ⟨cfg.getGroupRatio usingGroup, -1, false⟩

/-! ## Price data -/

/-- `PriceData`; the other ratios are in the order in which they are applied. -/
structure PriceData where
  freeModel : Bool
  modelPrice : ℚ
  modelRatio : ℚ
  completionRatio : ℚ
  cacheRatio : ℚ
  cacheCreationRatio : ℚ
  cacheCreation5mRatio : ℚ
  cacheCreation1hRatio : ℚ
  imageRatio : ℚ
  audioRatio : ℚ
  audioCompletionRatio : ℚ
  otherRatios : List ℚ
  usePrice : Bool
  quotaToPreConsume : Int
  groupRatioInfo : GroupRatioInfo
deriving DecidableEq, Repr

def PriceData.zero : PriceData :=
  ⟨false, 0, 0, 0, 0, 0, 0, 0, 0, 0, 0, [], false, 0, ⟨0, 0, false⟩⟩

def PriceData.applyOtherRatiosToDecimal (p : PriceData) (value : ℚ) : ℚ :=
  p.otherRatios.foldl (fun v ratio => if 0 < ratio ∧ ratio ≠ 1 then v * ratio else v) value

structure TokenParams where
  p : ℚ
  c : ℚ
  len : ℚ
  cr : ℚ
  cc : ℚ
  cc1h : ℚ
  img : ℚ
  imgO : ℚ
  ai : ℚ
  ao : ℚ
deriving DecidableEq, Repr

structure RequestInput where
  headers : List (String × String)
  body : String
deriving DecidableEq, Repr

/-- What evaluates billing expressions: the cost and the tier that matched, and the
variables an expression uses. -/
structure ExprEngine where
  runExpr : String → TokenParams → RequestInput → Except Err (ℚ × String)
  usedVars : String → List String

/-- `BillingSnapshot`; the hash is that of the expression, and the version has one value. -/
structure BillingSnapshot where
  billingMode : String
  modelName : String
  exprString : String
  groupRatio : ℚ
  estimatedPromptTokens : Int
  estimatedCompletionTokens : Int
  estimatedQuotaBeforeGroup : ℚ
  estimatedQuotaAfterGroup : Int
  estimatedTier : String
  quotaPerUnit : ℚ
deriving DecidableEq, Repr

/-- The part of the relay info that pricing reads and writes. -/
structure PriceInfo where
  userId : Int
  isAdmin : Bool
  userGroup : String
  usingGroup : String
  originModelName : String
  acceptUnsetRatioModel : Bool
  finalPreConsumedQuota : Int
  priceData : PriceData
  tieredBillingSnapshot : Option BillingSnapshot
  billingRequestInput : Option RequestInput
  hasChannelMeta : Bool
deriving DecidableEq, Repr

/-- The group after `auto_group` in the context has been looked at. -/
def resolveGroup (autoGroup : Option String) (info : PriceInfo) : PriceInfo :=
  { info with usingGroup := autoGroup.getD info.usingGroup }

def handleGroupRatio (cfg : Settings) (autoGroup : Option String) (info : PriceInfo) :
    GroupRatioInfo × PriceInfo :=
  let info := resolveGroup autoGroup info
  (groupRatioOf cfg info.userGroup info.usingGroup, info)

/-- `TokenCountMeta`, as far as pricing reads it. -/
structure TokenCountMeta where
  maxTokens : Int
  imagePriceRatio : ℚ
deriving DecidableEq, Repr

def modelPriceNotConfiguredError (modelName : String) (isAdmin : Bool) : Err :=
  if isAdmin then .msg ("模型 " ++ modelName ++
    " 的价格未配置。请前往「系统设置 → 运营设置」开启自用模式，或在「系统设置 → 分组与模型定价设置」中为该模型配置价格；" ++
    "Model " ++ modelName ++ " price not configured. Go to System Settings → Operation Settings to " ++
    "enable self-use mode, or configure the model price in System Settings → Group & Model Pricing.")
  else .msg ("模型 " ++ modelName ++
    " 的价格尚未由管理员配置，暂时无法使用，请联系站点管理员开启该模型；" ++
    "Model " ++ modelName ++ " has not been priced by the administrator yet. Please contact the " ++
    "site administrator to enable this model.")

def defaultTieredPreConsumeMaxTokens : Int := 8192

def estimatedCompletion (maxTokens : Int) (groupRatio : ℚ) : Int :=
  if maxTokens = 0 ∧ groupRatio ≠ 0 then defaultTieredPreConsumeMaxTokens else maxTokens

def modelPriceHelperTiered (engine : ExprEngine) (cfg : Settings)
    (input : Except Err RequestInput) (promptTokens : Int) (tokens : TokenCountMeta)
    (g : GroupRatioInfo) (info : PriceInfo) : Except Err (PriceData × PriceInfo) :=
  match cfg.billingExpr info.originModelName with
  | none => .error (.msg ("model " ++ info.originModelName ++
      " is configured as tiered_expr but has no billing expression"))
  | some exprStr => do
    let completion := estimatedCompletion tokens.maxTokens g.groupRatio
    let requestInput ← input
    match engine.runExpr exprStr ⟨promptTokens, completion, promptTokens, 0, 0, 0, 0, 0, 0, 0⟩
      requestInput with
    | .error e => .error (.msg ("model " ++ info.originModelName ++ " tiered expr run failed: " ++
        e.text))
    | .ok (rawCost, tier) =>
      let quotaBeforeGroup := rawCost / 1000000 * cfg.quotaPerUnit
      let freeModel := !cfg.enableFreeModelPreConsume && g.groupRatio == 0
      let preConsumedQuota := if freeModel then 0 else quotaRound (quotaBeforeGroup * g.groupRatio)
      let snapshot : BillingSnapshot :=
        { billingMode := "tiered_expr"
          modelName := info.originModelName
          exprString := exprStr
          groupRatio := g.groupRatio
          estimatedPromptTokens := promptTokens
          estimatedCompletionTokens := completion
          estimatedQuotaBeforeGroup := quotaBeforeGroup
          estimatedQuotaAfterGroup := preConsumedQuota
          estimatedTier := tier
          quotaPerUnit := cfg.quotaPerUnit }
      let priceData :=
        { PriceData.zero with
          freeModel := freeModel
          groupRatioInfo := g
          quotaToPreConsume := preConsumedQuota }
      .ok (priceData,
        { info with
          tieredBillingSnapshot := some snapshot
          billingRequestInput := some requestInput
          priceData := priceData })

/-- The quota and the price data of a model that is billed by its price. -/
def priceByPrice (cfg : Settings) (modelPrice : ℚ) (tokens : TokenCountMeta)
    (g : GroupRatioInfo) : PriceData :=
  let modelPrice :=
    if tokens.imagePriceRatio ≠ 0 then modelPrice * tokens.imagePriceRatio else modelPrice
  let free := !cfg.enableFreeModelPreConsume && (g.groupRatio == 0 || modelPrice == 0)
  { PriceData.zero with
    freeModel := free
    modelPrice := modelPrice
    usePrice := true
    groupRatioInfo := g
    quotaToPreConsume :=
      if free then 0 else quotaFromFloat (modelPrice * cfg.quotaPerUnit * g.groupRatio) }

/-- The quota and the price data of a model that is billed by its ratio. -/
def priceByRatio (cfg : Settings) (modelName : String) (promptTokens : Int)
    (tokens : TokenCountMeta) (g : GroupRatioInfo) : PriceData :=
  let modelRatio := (cfg.modelRatio modelName).1
  let preConsumedTokens := max promptTokens cfg.preConsumedQuota + tokens.maxTokens
  let free := !cfg.enableFreeModelPreConsume && (g.groupRatio == 0 || modelRatio == 0)
  { PriceData.zero with
    freeModel := free
    modelPrice := -1
    modelRatio := modelRatio
    completionRatio := cfg.completionRatio modelName
    cacheRatio := cfg.cacheRatio modelName
    cacheCreationRatio := cfg.createCacheRatio modelName
    cacheCreation5mRatio := cfg.createCacheRatio modelName
    cacheCreation1hRatio := cfg.createCacheRatio modelName * (6 / (375 / 100))
    imageRatio := cfg.imageRatio modelName
    audioRatio := cfg.audioRatio modelName
    audioCompletionRatio := cfg.audioCompletionRatio modelName
    groupRatioInfo := g
    quotaToPreConsume :=
      if free then 0 else quotaFromFloat (preConsumedTokens * (modelRatio * g.groupRatio)) }

def modelPriceHelper (engine : ExprEngine) (cfg : Settings) (autoGroup : Option String)
    (input : Except Err RequestInput) (promptTokens : Int) (tokens : TokenCountMeta)
    (info : PriceInfo) : Except Err (PriceData × PriceInfo) :=
  let g := (handleGroupRatio cfg autoGroup info).1
  let info := (handleGroupRatio cfg autoGroup info).2
  if cfg.tieredExprMode info.originModelName then
    modelPriceHelperTiered engine cfg input promptTokens tokens g info
  else
    match cfg.modelPrice info.originModelName with
    | some modelPrice =>
      let priceData := priceByPrice cfg modelPrice tokens g
      .ok (priceData, { info with priceData := priceData })
    | none => do
      let found := (cfg.modelRatio info.originModelName).2
      failIf (!found.1 ∧ !info.acceptUnsetRatioModel)
        (modelPriceNotConfiguredError found.2 info.isAdmin)
      let priceData := priceByRatio cfg info.originModelName promptTokens tokens g
      pure (priceData, { info with priceData := priceData })

/-! ## Plain settings -/

def unitSettings : Settings where
  groupRatio := fun _ => some 1
  groupGroupRatio := fun _ _ => none
  modelPrice := fun _ => none
  modelRatio := fun m => (1, true, m)
  completionRatio := fun _ => 1
  cacheRatio := fun _ => 1
  createCacheRatio := fun _ => 1
  imageRatio := fun _ => 1
  audioRatio := fun _ => 1
  audioCompletionRatio := fun _ => 1
  defaultModelRatio := fun _ => none
  geminiInputAudioPrice := fun _ => 0
  toolPrice := fun _ => 0
  toolPriceForModel := fun _ _ => 0
  gptImage1PriceOnceCall := fun _ _ => 0
  billingExpr := fun _ => none
  tieredExprMode := fun _ => false
  quotaPerUnit := 500000
  preConsumedQuota := 500
  enableFreeModelPreConsume := false

end Qapi.Pricing
