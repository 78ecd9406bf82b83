import Qapi.Core.Text
import Qapi.Pricing.Basic

/-!
# The quota of a text request

`service/text_quota.go`, `service/tiered_settle.go` and `pkg/billingexpr/settle.go`:
the quota that a text request is settled at. A request is billed by the ratios in its
price data, or by the expression of the snapshot that was taken when it was
pre-consumed; the tool calls are added in both cases.
-/

namespace Qapi.Pricing

open Qapi.Core

/-! ## Usage -/

/-- `dto.Usage`, as far as billing reads it; `cost` is what the upstream reports. -/
structure Usage where
  promptTokens : Int
  completionTokens : Int
  usageSemantic : String
  usageSource : String
  cachedTokens : Int
  cachedCreationTokens : Int
  imageTokens : Int
  audioTokens : Int
  outputImageTokens : Int
  outputAudioTokens : Int
  claudeCacheCreation5mTokens : Int
  claudeCacheCreation1hTokens : Int
  cost : ℚ
deriving DecidableEq, Repr

/-- The usage that is assumed when the upstream reports none. -/
def Usage.estimated (promptTokens : Int) : Usage :=
  ⟨promptTokens, 0, "", "", 0, 0, 0, 0, 0, 0, 0, 0, 0⟩

/-- The calls of built-in tools that `ResponsesUsageInfo` counted. -/
structure BuiltInTools where
  webSearchPreview : Option Int
  fileSearch : Option Int
deriving DecidableEq, Repr

/-- What the quota of a text request depends on besides the price data: the settings
in force, the format of the final request, the channel, and the tool calls. -/
structure TextContext where
  cfg : Settings
  finalFormatIsClaude : Bool
  channelIsOpenRouter : Bool
  estimatePromptTokens : Int
  responsesUsageInfo : Option BuiltInTools
  claudeWebSearchRequests : Int
  imageGenerationCall : Option (String × String)

/-! ## Tool calls -/

def calledTimes (count : Option Int) : Int := max (count.getD 0) 0

/-- The price of `count` calls of a tool that is priced per thousand calls. -/
def toolCallQuota (cfg : Settings) (price : ℚ) (count : Int) (groupRatio : ℚ) : ℚ :=
  price * count / 1000 * groupRatio * cfg.quotaPerUnit

def webSearchQuota (ctx : TextContext) (modelName : String) (groupRatio : ℚ) : ℚ :=
  let price := ctx.cfg.toolPriceForModel "web_search_preview" modelName
  match ctx.responsesUsageInfo with
  | some tools => toolCallQuota ctx.cfg price (calledTimes tools.webSearchPreview) groupRatio
  | none => if endsWith modelName "search-preview" then toolCallQuota ctx.cfg price 1 groupRatio else 0

def imageGenerationQuota (ctx : TextContext) (groupRatio : ℚ) : ℚ :=
  match ctx.imageGenerationCall with
  | some (quality, size) =>
    ctx.cfg.gptImage1PriceOnceCall quality size * groupRatio * ctx.cfg.quotaPerUnit
  | none => 0

def calculateTextToolCallSurcharge (ctx : TextContext) (modelName : String) (groupRatio : ℚ) : ℚ :=
  webSearchQuota ctx modelName groupRatio +
    toolCallQuota ctx.cfg (ctx.cfg.toolPrice "web_search") (max ctx.claudeWebSearchRequests 0)
      groupRatio +
    toolCallQuota ctx.cfg (ctx.cfg.toolPrice "file_search")
      (calledTimes (ctx.responsesUsageInfo.bind (·.fileSearch))) groupRatio +
    imageGenerationQuota ctx groupRatio

theorem toolCallQuota_ratio (cfg : Settings) (price : ℚ) (count : Int) (groupRatio : ℚ) :
    toolCallQuota cfg price count groupRatio = toolCallQuota cfg price count 1 * groupRatio := by
  unfold toolCallQuota
  ring

theorem webSearchQuota_ratio (ctx : TextContext) (modelName : String) (groupRatio : ℚ) :
    webSearchQuota ctx modelName groupRatio = webSearchQuota ctx modelName 1 * groupRatio := by
  unfold webSearchQuota
  cases ctx.responsesUsageInfo with
  | some tools => exact toolCallQuota_ratio _ _ _ _
  | none =>
    dsimp only
    split
    · exact toolCallQuota_ratio _ _ _ _
    · simp

theorem imageGenerationQuota_ratio (ctx : TextContext) (groupRatio : ℚ) :
    imageGenerationQuota ctx groupRatio = imageGenerationQuota ctx 1 * groupRatio := by
  unfold imageGenerationQuota
  cases ctx.imageGenerationCall with
  | none => simp
  | some call =>
    ring

theorem surcharge_ratio (ctx : TextContext) (modelName : String) (groupRatio : ℚ) :
    calculateTextToolCallSurcharge ctx modelName groupRatio =
      calculateTextToolCallSurcharge ctx modelName 1 * groupRatio := by
  unfold calculateTextToolCallSurcharge
  rw [webSearchQuota_ratio, imageGenerationQuota_ratio,
    toolCallQuota_ratio ctx.cfg (ctx.cfg.toolPrice "web_search"),
    toolCallQuota_ratio ctx.cfg (ctx.cfg.toolPrice "file_search")]
  ring

/-! ## Billing by ratio -/

def hasCustomModelRatio (cfg : Settings) (modelName : String) (currentRatio : ℚ) : Bool :=
  match cfg.defaultModelRatio modelName with
  | none => true
  | some defaultRatio => currentRatio != defaultRatio

def calcOpenRouterCacheCreateTokens (cfg : Settings) (usage : Usage) (p : PriceData) : Int :=
  if p.cacheCreationRatio = 1 then 0
  else
    let quotaPrice := p.modelRatio / cfg.quotaPerUnit
    let promptCacheCreatePrice := quotaPrice * p.cacheCreationRatio
    let promptCacheReadPrice := quotaPrice * p.cacheRatio
    let completionPrice := quotaPrice * p.completionRatio
    roundHalfAway ((usage.cost - usage.promptTokens * quotaPrice +
      usage.cachedTokens * (quotaPrice - promptCacheReadPrice) -
      usage.completionTokens * completionPrice) / (promptCacheCreatePrice - quotaPrice))

def usageSemanticFromUsage (ctx : TextContext) (usage : Option Usage) : String :=
  match usage with
  | some u => if u.usageSemantic ≠ "" then u.usageSemantic
      else if ctx.finalFormatIsClaude then "anthropic" else "openai"
  | none => if ctx.finalFormatIsClaude then "anthropic" else "openai"

def isLegacyClaudeDerivedOpenAIUsage (ctx : TextContext) (u : Usage) : Bool :=
  !ctx.finalFormatIsClaude && u.usageSource == "" && u.usageSemantic == "" &&
    (u.claudeCacheCreation5mTokens > 0 || u.claudeCacheCreation1hTokens > 0)

/-- The prompt tokens and the cache creation tokens that are billed. OpenRouter
reports Claude's cache tokens inside the prompt, and leaves those of the cache
creation to be derived from the cost; a cost that was decoded is never the integer
zero that the source compares it with. -/
def billedPrompt (ctx : TextContext) (isClaude : Bool) (modelName : String) (p : PriceData)
    (u : Usage) : Int × Int :=
  if ctx.channelIsOpenRouter && isClaude then
    let prompt := u.promptTokens - u.cachedTokens
    let custom := p.usePrice || hasCustomModelRatio ctx.cfg modelName p.modelRatio
    let derived := calcOpenRouterCacheCreateTokens ctx.cfg u p
    let creation :=
      if u.cachedCreationTokens = 0 ∧ p.cacheCreationRatio ≠ 1 ∧ !custom ∧ 0 ≤ derived ∧
        derived ≤ prompt then derived
      else u.cachedCreationTokens
    (prompt - creation, creation)
  else (u.promptTokens, u.cachedCreationTokens)

def weightedCacheCreation (textOnly : Bool) (p : PriceData) (creation : Int) (u : Usage) : ℚ :=
  let split5m := u.claudeCacheCreation5mTokens
  let split1h := u.claudeCacheCreation1hTokens
  if creation = 0 ∧ ¬ (split5m > 0 ∨ split1h > 0) then 0
  else if textOnly then
    max (creation - split5m - split1h) 0 * p.cacheCreationRatio +
      split5m * p.cacheCreation5mRatio + split1h * p.cacheCreation1hRatio
  else creation * p.cacheCreationRatio

def baseTokens (textOnly : Bool) (audioPrice : ℚ) (prompt creation : Int) (u : Usage) : Int :=
  let cached := if textOnly then 0 else u.cachedTokens
  let created := if textOnly then 0 else creation
  let audio := if u.audioTokens ≠ 0 ∧ audioPrice > 0 then u.audioTokens else 0
  prompt - cached - created - u.imageTokens - audio

def audioInputQuota (cfg : Settings) (audioPrice : ℚ) (u : Usage) (groupRatio : ℚ) : ℚ :=
  if u.audioTokens ≠ 0 ∧ audioPrice > 0 then
    audioPrice / 1000000 * u.audioTokens * groupRatio * cfg.quotaPerUnit
  else 0

/-- The part of `calculateTextQuotaSummary` that the settlement and the log read. -/
structure TextQuotaSummary where
  totalTokens : Int
  groupRatio : ℚ
  isClaudeUsageSemantic : Bool
  toolCallSurchargeQuota : ℚ
  quota : Int
deriving DecidableEq, Repr

def textQuotaByRatio (ctx : TextContext) (modelName : String) (p : PriceData) (isClaude : Bool)
    (legacy : Bool) (u : Usage) : ℚ :=
  let groupRatio := p.groupRatioInfo.groupRatio
  let ratio := p.modelRatio * groupRatio
  let textOnly := isClaude || legacy
  let (prompt, creation) := billedPrompt ctx isClaude modelName p u
  let audioPrice := ctx.cfg.geminiInputAudioPrice modelName
  let promptQuota : ℚ := baseTokens textOnly audioPrice prompt creation u +
    u.cachedTokens * p.cacheRatio + u.imageTokens * p.imageRatio +
    weightedCacheCreation textOnly p creation u
  let quota := (promptQuota + u.completionTokens * p.completionRatio) * ratio +
    calculateTextToolCallSurcharge ctx modelName groupRatio +
    audioInputQuota ctx.cfg audioPrice u groupRatio
  let quota := p.applyOtherRatiosToDecimal quota
  if ratio ≠ 0 ∧ quota ≤ 0 then 1 else quota

def textQuotaByPrice (ctx : TextContext) (modelName : String) (p : PriceData) : ℚ :=
  let groupRatio := p.groupRatioInfo.groupRatio
  p.applyOtherRatiosToDecimal (p.modelPrice * ctx.cfg.quotaPerUnit * groupRatio +
    calculateTextToolCallSurcharge ctx modelName groupRatio)

def calculateTextQuotaSummary (ctx : TextContext) (info : PriceInfo) (usage : Option Usage) :
    TextQuotaSummary :=
  let p := info.priceData
  let isClaude := usageSemanticFromUsage ctx usage == "anthropic"
  let u := usage.getD (.estimated ctx.estimatePromptTokens)
  let legacy := isLegacyClaudeDerivedOpenAIUsage ctx u
  let totalTokens := u.promptTokens + u.completionTokens
  let ratio := p.modelRatio * p.groupRatioInfo.groupRatio
  let quota := quotaFromDecimal
    (if p.usePrice then textQuotaByPrice ctx info.originModelName p
      else textQuotaByRatio ctx info.originModelName p isClaude legacy u)
  { totalTokens := totalTokens
    groupRatio := p.groupRatioInfo.groupRatio
    isClaudeUsageSemantic := isClaude
    toolCallSurchargeQuota :=
      calculateTextToolCallSurcharge ctx info.originModelName p.groupRatioInfo.groupRatio
    quota := if totalTokens = 0 then 0 else if ratio ≠ 0 ∧ quota = 0 then 1 else quota }

/-! ## Billing by expression -/

def buildTieredTokenParams (u : Usage) (isClaude : Bool) (usedVars : List String) : TokenParams :=
  let cr : ℚ := u.cachedTokens
  let cc : ℚ := if u.usageSemantic = "anthropic" then u.claudeCacheCreation5mTokens
    else u.cachedCreationTokens
  let cc1h : ℚ := if u.usageSemantic = "anthropic" then u.claudeCacheCreation1hTokens else 0
  let img : ℚ := u.imageTokens
  let ai : ℚ := u.audioTokens
  let imgO : ℚ := u.outputImageTokens
  let ao : ℚ := u.outputAudioTokens
  let part (name : String) (x : ℚ) : ℚ := if !isClaude ∧ name ∈ usedVars then x else 0
  let p := u.promptTokens - part "cr" cr - part "cc" cc - part "cc1h" cc1h - part "img" img -
    part "ai" ai
  let c := u.completionTokens - part "img_o" imgO - part "ao" ao
  { p := max p 0
    c := max c 0
    len := if isClaude then u.promptTokens + cr + cc + cc1h else u.promptTokens
    cr := cr
    cc := cc
    cc1h := cc1h
    img := img
    imgO := imgO
    ai := ai
    ao := ao }

structure TieredResult where
  actualQuotaBeforeGroup : ℚ
  actualQuotaAfterGroup : Int
  matchedTier : String
  crossedTier : Bool
deriving DecidableEq, Repr

def computeTieredQuotaWithRequest (engine : ExprEngine) (snap : BillingSnapshot)
    (params : TokenParams) (request : RequestInput) : Except Err TieredResult := do
  let (cost, tier) ← engine.runExpr snap.exprString params request
  let quotaBeforeGroup := cost / 1000000 * snap.quotaPerUnit
  pure
    { actualQuotaBeforeGroup := quotaBeforeGroup
      actualQuotaAfterGroup := quotaRound (quotaBeforeGroup * snap.groupRatio)
      matchedTier := tier
      crossedTier := tier != snap.estimatedTier }

/-- `TryTieredSettle`: nothing when the request is not billed by an expression. -/
def tryTieredSettle (engine : ExprEngine) (info : PriceInfo) (params : TokenParams) :
    Option (Int × Option TieredResult) :=
  match info.tieredBillingSnapshot with
  | none => none
  | some snap =>
    if snap.billingMode ≠ "tiered_expr" then none
    else
      match computeTieredQuotaWithRequest engine snap params
        (info.billingRequestInput.getD ⟨[], ""⟩) with
      | .error _ =>
        some (if info.finalPreConsumedQuota ≤ 0 then snap.estimatedQuotaAfterGroup
          else info.finalPreConsumedQuota, none)
      | .ok tr => some (tr.actualQuotaAfterGroup, some tr)

def composeTieredTextQuota (info : PriceInfo) (summary : TextQuotaSummary) (tieredQuota : Int)
    (tieredResult : Option TieredResult) : Int :=
  if summary.toolCallSurchargeQuota = 0 then tieredQuota
  else
    match tieredResult, info.tieredBillingSnapshot with
    | some tr, some snap => quotaFromDecimal
        (tr.actualQuotaBeforeGroup * snap.groupRatio + summary.toolCallSurchargeQuota)
    | _, _ => quotaFromDecimal (tieredQuota + summary.toolCallSurchargeQuota)

/-- The quota that `PostTextConsumeQuota` settles. -/
def textQuota (engine : ExprEngine) (ctx : TextContext) (info : PriceInfo)
    (usage : Option Usage) : Int :=
  let summary := calculateTextQuotaSummary ctx info usage
  match usage with
  | none => summary.quota
  | some u =>
    let usedVars := (info.tieredBillingSnapshot.map fun snap => engine.usedVars snap.exprString).getD []
    match tryTieredSettle engine info
      (buildTieredTokenParams u summary.isClaudeUsageSemantic usedVars) with
    | none => summary.quota
    | some (tieredQuota, tieredResult) =>
      composeTieredTextQuota info summary tieredQuota tieredResult

end Qapi.Pricing
