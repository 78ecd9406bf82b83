import Mathlib.Algebra.Order.BigOperators.GroupWithZero.List
import Qapi.Pricing.TieredTokens

/-!
# Bounds of the quota of a text request

A text request that is billed by ratio under the OpenAI semantic costs nothing without
tokens, and between one and the maximal quota otherwise. The amount before rounding is
linear in each count and in the group ratio; rounding, the floor of one and the
saturation keep its order, as long as the group ratio and the prices of the tools are
not negative.
-/

namespace Qapi.Pricing

open Qapi.Core List

/-! ## Rounding, floor and saturation -/

theorem roundHalfAway_mono {q r : ℚ} (h : q ≤ r) : roundHalfAway q ≤ roundHalfAway r := by
  unfold roundHalfAway
  split
  next hq =>
    rw [if_pos (le_trans hq h)]
    exact Int.floor_le_floor (by linarith)
  next hq =>
    split
    next hr =>
      have hLeft : 0 ≤ ⌊-q + 1 / 2⌋ := Int.floor_nonneg.mpr (by linarith)
      have hRight : 0 ≤ ⌊r + 1 / 2⌋ := Int.floor_nonneg.mpr (by linarith)
      omega
    next hr =>
      have hFloor : ⌊-r + 1 / 2⌋ ≤ ⌊-q + 1 / 2⌋ := Int.floor_le_floor (by linarith)
      omega

theorem saturate_mono {lo hi x y : Int} (hBounds : lo ≤ hi) (h : x ≤ y) :
    saturate lo hi x ≤ saturate lo hi y := by
  unfold saturate
  split <;> split <;> (try split) <;> omega

theorem quotaFromDecimal_mono {q r : ℚ} (h : q ≤ r) : quotaFromDecimal q ≤ quotaFromDecimal r :=
  saturate_mono (by decide) (roundHalfAway_mono h)

theorem quotaFromDecimal_le (q : ℚ) : quotaFromDecimal q ≤ maxQuota := by
  have hBounds : minQuota ≤ maxQuota := by decide
  unfold quotaFromDecimal saturateQuota saturate
  split
  · exact le_refl _
  · split <;> omega

/-- The quota of an amount: rounded and saturated, and at least one when the ratio is
not zero. -/
def roundedQuota (charged : Bool) (amount : ℚ) : Int :=
  let quota := quotaFromDecimal (if charged ∧ amount ≤ 0 then 1 else amount)
  if charged ∧ quota = 0 then 1 else quota

theorem roundedQuota_uncharged (amount : ℚ) : roundedQuota false amount = quotaFromDecimal amount := by
  simp [roundedQuota]

theorem roundedQuota_charged (amount : ℚ) :
    roundedQuota true amount = max 1 (quotaFromDecimal amount) := by
  have hOne : quotaFromDecimal 1 = 1 := by
    norm_num [quotaFromDecimal, roundHalfAway, saturateQuota, saturate, maxQuota, minQuota]
  have hZero : quotaFromDecimal 0 = 0 := by
    norm_num [quotaFromDecimal, roundHalfAway, saturateQuota, saturate, maxQuota, minQuota]
  unfold roundedQuota
  simp only [true_and]
  by_cases hSign : amount ≤ 0
  · have hLe : quotaFromDecimal amount ≤ 0 := hZero ▸ quotaFromDecimal_mono hSign
    simp only [hSign, if_true, hOne]
    omega
  · have hLe : 0 ≤ quotaFromDecimal amount := quotaFromDecimal_nonneg (by linarith)
    simp only [hSign, if_false]
    split <;> omega

theorem roundedQuota_mono (charged : Bool) {x y : ℚ} (h : x ≤ y) :
    roundedQuota charged x ≤ roundedQuota charged y := by
  have hQuota := quotaFromDecimal_mono h
  cases charged with
  | false => simpa only [roundedQuota_uncharged] using hQuota
  | true =>
    rw [roundedQuota_charged, roundedQuota_charged]
    omega

theorem roundedQuota_bounds (amount : ℚ) :
    1 ≤ roundedQuota true amount ∧ roundedQuota true amount ≤ maxQuota := by
  have hLe := quotaFromDecimal_le amount
  have hMax : 1 ≤ maxQuota := by decide
  rw [roundedQuota_charged]
  omega

theorem roundedQuota_nonneg (charged : Bool) {amount : ℚ} (h : 0 ≤ amount) :
    0 ≤ roundedQuota charged amount := by
  cases charged with
  | false => exact roundedQuota_uncharged amount ▸ quotaFromDecimal_nonneg h
  | true => exact le_trans (by decide) (roundedQuota_bounds amount).1

/-! ## The amount -/

def PriceData.otherFactor (p : PriceData) : ℚ :=
  (p.otherRatios.map fun ratio => if 0 < ratio ∧ ratio ≠ 1 then ratio else 1).prod

theorem PriceData.otherFactor_pos (p : PriceData) : 0 < p.otherFactor := by
  apply prod_pos
  intro factor hMem
  obtain ⟨ratio, _, rfl⟩ := mem_map.mp hMem
  split
  next h => exact h.1
  next => exact one_pos

theorem PriceData.applyOtherRatiosToDecimal_eq (p : PriceData) (value : ℚ) :
    p.applyOtherRatiosToDecimal value = value * p.otherFactor := by
  unfold PriceData.applyOtherRatiosToDecimal PriceData.otherFactor
  induction p.otherRatios generalizing value with
  | nil => simp
  | cons ratio rest ih =>
    rw [foldl_cons, ih, map_cons, prod_cons]
    split <;> ring

/-- The tokens of a request, each weighted with its ratio, under the OpenAI semantic. -/
def weightedTokens (audioPrice : ℚ) (p : PriceData) (u : Usage) : ℚ :=
  baseTokens false audioPrice u.promptTokens u.cachedCreationTokens u +
    u.cachedTokens * p.cacheRatio + u.imageTokens * p.imageRatio +
    weightedCacheCreation false p u.cachedCreationTokens u + u.completionTokens * p.completionRatio

def extraQuota (ctx : TextContext) (modelName : String) (u : Usage) : ℚ :=
  calculateTextToolCallSurcharge ctx modelName 1 +
    audioInputQuota ctx.cfg (ctx.cfg.geminiInputAudioPrice modelName) u 1

def openAiAmount (ctx : TextContext) (modelName : String) (p : PriceData) (u : Usage) : ℚ :=
  (weightedTokens (ctx.cfg.geminiInputAudioPrice modelName) p u * p.modelRatio +
    extraQuota ctx modelName u) * p.groupRatioInfo.groupRatio * p.otherFactor

theorem audioInputQuota_ratio (cfg : Settings) (audioPrice : ℚ) (u : Usage) (groupRatio : ℚ) :
    audioInputQuota cfg audioPrice u groupRatio = audioInputQuota cfg audioPrice u 1 * groupRatio := by
  unfold audioInputQuota
  split
  · ring
  · simp

def summaryQuota (ctx : TextContext) (info : PriceInfo) (u : Usage) : Int :=
  (calculateTextQuotaSummary ctx info (some u)).quota

/-- A usage in OpenAI semantics that was not derived from one of Claude. -/
structure OpenAiUsage (ctx : TextContext) (u : Usage) : Prop where
  semantic : isClaudeUsageSemantic ctx u = false
  notLegacy : isLegacyClaudeDerivedOpenAIUsage ctx u = false

theorem textQuotaByRatio_openAi (ctx : TextContext) (modelName : String) (p : PriceData) (u : Usage) :
    textQuotaByRatio ctx modelName p false false u =
      if p.modelRatio * p.groupRatioInfo.groupRatio ≠ 0 ∧ openAiAmount ctx modelName p u ≤ 0 then 1
      else openAiAmount ctx modelName p u := by
  have hAmount : openAiAmount ctx modelName p u = p.applyOtherRatiosToDecimal
      ((baseTokens false (ctx.cfg.geminiInputAudioPrice modelName) u.promptTokens
          u.cachedCreationTokens u + u.cachedTokens * p.cacheRatio + u.imageTokens * p.imageRatio +
          weightedCacheCreation false p u.cachedCreationTokens u +
          u.completionTokens * p.completionRatio) * (p.modelRatio * p.groupRatioInfo.groupRatio) +
        calculateTextToolCallSurcharge ctx modelName p.groupRatioInfo.groupRatio +
        audioInputQuota ctx.cfg (ctx.cfg.geminiInputAudioPrice modelName) u
          p.groupRatioInfo.groupRatio) := by
    rw [PriceData.applyOtherRatiosToDecimal_eq, surcharge_ratio, audioInputQuota_ratio]
    unfold openAiAmount weightedTokens extraQuota
    ring
  rw [hAmount]
  simp only [textQuotaByRatio, billedPrompt, Bool.and_false, Bool.or_self, Bool.false_eq_true,
    if_false]

variable {ctx : TextContext}

theorem summaryQuota_openAi {info : PriceInfo} {u : Usage} (hUsage : OpenAiUsage ctx u)
    (hByRatio : info.priceData.usePrice = false) :
    summaryQuota ctx info u =
      if u.promptTokens + u.completionTokens = 0 then 0
      else roundedQuota
        (decide (info.priceData.modelRatio * info.priceData.groupRatioInfo.groupRatio ≠ 0))
        (openAiAmount ctx info.originModelName info.priceData u) := by
  have hSemantic : (usageSemanticFromUsage ctx (some u) == "anthropic") = false := hUsage.semantic
  simp only [summaryQuota, calculateTextQuotaSummary, hSemantic, Option.getD_some,
    hUsage.notLegacy, hByRatio, Bool.false_eq_true, if_false, textQuotaByRatio_openAi,
    roundedQuota, decide_eq_true_eq]

/-! ## Monotonicity of the amount -/

theorem weightedTokens_prompt (audioPrice : ℚ) (p : PriceData) (u : Usage) (n : Int) :
    weightedTokens audioPrice p { u with promptTokens := n } =
      weightedTokens audioPrice p u + (n - u.promptTokens) := by
  simp only [weightedTokens, baseTokens, weightedCacheCreation]
  push_cast
  ring

theorem weightedTokens_completion (audioPrice : ℚ) (p : PriceData) (u : Usage) (n : Int) :
    weightedTokens audioPrice p { u with completionTokens := n } =
      weightedTokens audioPrice p u + (n - u.completionTokens) * p.completionRatio := by
  simp only [weightedTokens, baseTokens, weightedCacheCreation]
  ring

theorem weightedTokens_cached (audioPrice : ℚ) (p : PriceData) (u : Usage) (k : Int) :
    weightedTokens audioPrice p { u with cachedTokens := u.cachedTokens + k } =
      weightedTokens audioPrice p u + k * (p.cacheRatio - 1) := by
  simp only [weightedTokens, baseTokens, weightedCacheCreation, Bool.false_eq_true, if_false]
  push_cast
  ring

theorem openAiAmount_mono {modelName : String} {p : PriceData} {u v : Usage}
    (hModel : 0 ≤ p.modelRatio) (hGroup : 0 ≤ p.groupRatioInfo.groupRatio)
    (hTokens : weightedTokens (ctx.cfg.geminiInputAudioPrice modelName) p u ≤ weightedTokens
      (ctx.cfg.geminiInputAudioPrice modelName) p v)
    (hExtra : extraQuota ctx modelName u = extraQuota ctx modelName v) :
    openAiAmount ctx modelName p u ≤ openAiAmount ctx modelName p v := by
  have hOther := p.otherFactor_pos.le
  unfold openAiAmount
  rw [hExtra]
  gcongr

structure Settings.NonnegPrices (cfg : Settings) : Prop where
  quotaPerUnit : 0 ≤ cfg.quotaPerUnit
  toolPrice : ∀ tool, 0 ≤ cfg.toolPrice tool
  toolPriceForModel : ∀ tool modelName, 0 ≤ cfg.toolPriceForModel tool modelName
  gptImage1PriceOnceCall : ∀ quality size, 0 ≤ cfg.gptImage1PriceOnceCall quality size

theorem toolCallQuota_nonneg {cfg : Settings} (hUnit : 0 ≤ cfg.quotaPerUnit) {price : ℚ}
    (hPrice : 0 ≤ price) {count : Int} (hCount : 0 ≤ count) : 0 ≤ toolCallQuota cfg price count 1 := by
  have hCast : (0 : ℚ) ≤ count := Int.cast_nonneg hCount
  unfold toolCallQuota
  positivity

theorem webSearchQuota_nonneg (h : ctx.cfg.NonnegPrices) (modelName : String) :
    0 ≤ webSearchQuota ctx modelName 1 := by
  unfold webSearchQuota
  cases ctx.responsesUsageInfo with
  | some tools =>
    exact toolCallQuota_nonneg h.quotaPerUnit (h.toolPriceForModel _ _) (le_max_right _ _)
  | none =>
    dsimp only
    split
    · exact toolCallQuota_nonneg h.quotaPerUnit (h.toolPriceForModel _ _) (by decide)
    · exact le_refl 0

theorem imageGenerationQuota_nonneg (h : ctx.cfg.NonnegPrices) :
    0 ≤ imageGenerationQuota ctx 1 := by
  unfold imageGenerationQuota
  cases ctx.imageGenerationCall with
  | none => exact le_refl 0
  | some call =>
    have hPrice := h.gptImage1PriceOnceCall call.1 call.2
    have hUnit := h.quotaPerUnit
    positivity

theorem extraQuota_nonneg (h : ctx.cfg.NonnegPrices) (modelName : String) {u : Usage}
    (hAudio : 0 ≤ u.audioTokens) : 0 ≤ extraQuota ctx modelName u := by
  have hWeb := webSearchQuota_nonneg h modelName
  have hClaude := toolCallQuota_nonneg h.quotaPerUnit (h.toolPrice "web_search")
    (le_max_right ctx.claudeWebSearchRequests 0)
  have hFile : 0 ≤ toolCallQuota ctx.cfg (ctx.cfg.toolPrice "file_search")
      (calledTimes (ctx.responsesUsageInfo.bind (·.fileSearch))) 1 :=
    toolCallQuota_nonneg h.quotaPerUnit (h.toolPrice "file_search") (le_max_right _ _)
  have hImage := imageGenerationQuota_nonneg h
  have hAudioQuota : 0 ≤ audioInputQuota ctx.cfg (ctx.cfg.geminiInputAudioPrice modelName) u 1 := by
    have hUnit := h.quotaPerUnit
    have hCast : (0 : ℚ) ≤ u.audioTokens := Int.cast_nonneg hAudio
    unfold audioInputQuota
    split
    next hPriced =>
      have hPrice := hPriced.2
      positivity
    next => exact le_refl 0
  unfold extraQuota calculateTextToolCallSurcharge
  linarith

/-! ## The quota -/

def PriceInfo.withGroupRatio (info : PriceInfo) (groupRatio : ℚ) : PriceInfo :=
  { info with priceData := { info.priceData with
      groupRatioInfo := { info.priceData.groupRatioInfo with groupRatio := groupRatio } } }

/-- What the quota of a request is bounded by, and what it is monotone in. -/
structure OrderlyQuota (ctx : TextContext) (info : PriceInfo) (u : Usage) : Prop where
  zero : u.promptTokens + u.completionTokens = 0 → summaryQuota ctx info u = 0
  bounds : 0 < u.promptTokens + u.completionTokens →
    info.priceData.modelRatio * info.priceData.groupRatioInfo.groupRatio ≠ 0 →
      1 ≤ summaryQuota ctx info u ∧ summaryQuota ctx info u ≤ maxQuota
  prompt : ∀ n, u.promptTokens ≤ n →
    summaryQuota ctx info u ≤ summaryQuota ctx info { u with promptTokens := n }
  completion : ∀ n, u.completionTokens ≤ n →
    summaryQuota ctx info u ≤ summaryQuota ctx info { u with completionTokens := n }
  groupRatio : ∀ g, info.priceData.groupRatioInfo.groupRatio ≤ g →
    summaryQuota ctx info u ≤ summaryQuota ctx (info.withGroupRatio g) u
  cached : info.priceData.cacheRatio ≤ 1 → ∀ k, 0 ≤ k →
    u.cachedTokens + k + u.cachedCreationTokens + u.imageTokens + u.audioTokens ≤ u.promptTokens →
      summaryQuota ctx info { u with cachedTokens := u.cachedTokens + k } ≤ summaryQuota ctx info u

section

variable {ctx : TextContext} {info : PriceInfo} {u v : Usage}

/-- The amount that is billed at ratio zero is what the tools and the audio cost, at the
group ratio. -/
theorem openAiAmount_nonneg_of_ratio_zero (hPrices : ctx.cfg.NonnegPrices) (hNonneg : u.Nonneg)
    {p : PriceData} (hGroup : 0 ≤ p.groupRatioInfo.groupRatio)
    (hZero : p.modelRatio * p.groupRatioInfo.groupRatio = 0) (modelName : String) :
    0 ≤ openAiAmount ctx modelName p u := by
  have hExtra := extraQuota_nonneg hPrices modelName hNonneg.audioTokens
  have hOther := p.otherFactor_pos.le
  have hEq : openAiAmount ctx modelName p u =
      extraQuota ctx modelName u * p.groupRatioInfo.groupRatio * p.otherFactor := by
    unfold openAiAmount
    rw [add_mul, mul_assoc (weightedTokens _ _ _), hZero, mul_zero, zero_add]
  rw [hEq]
  positivity

theorem summaryQuota_nonneg (hPrices : ctx.cfg.NonnegPrices) (hUsage : OpenAiUsage ctx u)
    (hNonneg : u.Nonneg) (hByRatio : info.priceData.usePrice = false)
    (hGroup : 0 ≤ info.priceData.groupRatioInfo.groupRatio) : 0 ≤ summaryQuota ctx info u := by
  rw [summaryQuota_openAi hUsage hByRatio]
  split
  · exact le_refl 0
  by_cases hRatio : info.priceData.modelRatio * info.priceData.groupRatioInfo.groupRatio = 0
  · exact roundedQuota_nonneg _ (openAiAmount_nonneg_of_ratio_zero hPrices hNonneg hGroup hRatio _)
  · rw [decide_eq_true hRatio]
    exact le_trans (by decide) (roundedQuota_bounds _).1

/-- More tokens of the same kinds cost as much or more. -/
theorem summaryQuota_mono (hPrices : ctx.cfg.NonnegPrices) (hByRatio : info.priceData.usePrice = false)
    (hModel : 0 ≤ info.priceData.modelRatio)
    (hGroup : 0 ≤ info.priceData.groupRatioInfo.groupRatio)
    (hUsageU : OpenAiUsage ctx u) (hUsageV : OpenAiUsage ctx v) (hNonnegU : u.Nonneg)
    (hNonnegV : v.Nonneg)
    (hTotal : u.promptTokens + u.completionTokens ≤ v.promptTokens + v.completionTokens)
    (hTokens : ∀ audioPrice, weightedTokens audioPrice info.priceData u ≤
      weightedTokens audioPrice info.priceData v)
    (hAudio : u.audioTokens = v.audioTokens) : summaryQuota ctx info u ≤ summaryQuota ctx info v := by
  have hFloor : 0 ≤ summaryQuota ctx info v :=
    summaryQuota_nonneg hPrices hUsageV hNonnegV hByRatio hGroup
  have hExtra : extraQuota ctx info.originModelName u = extraQuota ctx info.originModelName v := by
    simp only [extraQuota, audioInputQuota, hAudio]
  have hPromptU := hNonnegU.promptTokens
  have hCompletionU := hNonnegU.completionTokens
  by_cases hNone : u.promptTokens + u.completionTokens = 0
  · rw [summaryQuota_openAi hUsageU hByRatio, if_pos hNone]
    exact hFloor
  · have hSome : v.promptTokens + v.completionTokens ≠ 0 := by omega
    rw [summaryQuota_openAi hUsageU hByRatio, summaryQuota_openAi hUsageV hByRatio, if_neg hNone,
      if_neg hSome]
    exact roundedQuota_mono _ (openAiAmount_mono hModel hGroup (hTokens _) hExtra)

theorem openAiAmount_ratio (ctx : TextContext) (info : PriceInfo) (u : Usage) (g : ℚ) :
    openAiAmount ctx info.originModelName (info.withGroupRatio g).priceData u =
      (weightedTokens (ctx.cfg.geminiInputAudioPrice info.originModelName) info.priceData u *
        info.priceData.modelRatio + extraQuota ctx info.originModelName u) *
        info.priceData.otherFactor * g := by
  simp only [openAiAmount, PriceInfo.withGroupRatio, PriceData.otherFactor, weightedTokens,
    weightedCacheCreation]
  ring

theorem withGroupRatio_self (info : PriceInfo) :
    info.withGroupRatio info.priceData.groupRatioInfo.groupRatio = info := rfl

theorem roundedQuota_charged_scale (amount : ℚ) {g h : ℚ} (hg : 0 ≤ g) (hLe : g ≤ h) :
    roundedQuota true (amount * g) ≤ roundedQuota true (amount * h) := by
  rcases le_total 0 amount with hSign | hSign
  · exact roundedQuota_mono true (mul_le_mul_of_nonneg_left hLe hSign)
  · have hAmount : amount * g ≤ 0 := mul_nonpos_of_nonpos_of_nonneg hSign hg
    have hOne : roundedQuota true (amount * g) ≤ roundedQuota true 0 :=
      roundedQuota_mono true hAmount
    have hZero : roundedQuota true 0 = 1 := by
      norm_num [roundedQuota, quotaFromDecimal, roundHalfAway, saturateQuota, saturate, maxQuota,
        minQuota]
    have hFloor := (roundedQuota_bounds (amount * h)).1
    omega

/-- A higher group ratio costs as much or more. -/
theorem summaryQuota_groupRatio (hPrices : ctx.cfg.NonnegPrices) (hUsage : OpenAiUsage ctx u)
    (hNonneg : u.Nonneg) (hByRatio : info.priceData.usePrice = false)
    (hGroup : 0 ≤ info.priceData.groupRatioInfo.groupRatio) {g : ℚ}
    (hLe : info.priceData.groupRatioInfo.groupRatio ≤ g) :
    summaryQuota ctx info u ≤ summaryQuota ctx (info.withGroupRatio g) u := by
  have hFloor : 0 ≤ summaryQuota ctx (info.withGroupRatio g) u :=
    summaryQuota_nonneg hPrices hUsage hNonneg hByRatio (le_trans hGroup hLe)
  have hSame := openAiAmount_ratio ctx info u info.priceData.groupRatioInfo.groupRatio
  rw [withGroupRatio_self] at hSame
  have hExtra := extraQuota_nonneg hPrices info.originModelName hNonneg.audioTokens
  have hOther := info.priceData.otherFactor_pos.le
  rcases eq_or_ne info.priceData.groupRatioInfo.groupRatio 0 with hFree | hPaid
  · -- at group ratio zero nothing is charged
    have hZero : summaryQuota ctx info u = 0 := by
      rw [summaryQuota_openAi hUsage hByRatio, hSame, hFree, mul_zero, mul_zero]
      norm_num [roundedQuota, quotaFromDecimal, roundHalfAway, saturateQuota, saturate, maxQuota,
        minQuota]
    rw [hZero]
    exact hFloor
  have hByRatioMore : (info.withGroupRatio g).priceData.usePrice = false := hByRatio
  rw [summaryQuota_openAi hUsage hByRatio, summaryQuota_openAi hUsage hByRatioMore, hSame]
  split
  · exact le_refl 0
  have hPositive : 0 < g := lt_of_lt_of_le (lt_of_le_of_ne hGroup hPaid.symm) hLe
  rcases eq_or_ne info.priceData.modelRatio 0 with hModelZero | hModelPaid
  · -- a model without a ratio costs what its tools and its audio cost
    have hAmount := openAiAmount_ratio ctx info u g
    have hUncharged : (info.withGroupRatio g).priceData.modelRatio = 0 := hModelZero
    rw [hUncharged, hModelZero]
    simp only [zero_mul, ne_eq, not_true_eq_false, decide_false]
    apply roundedQuota_mono
    rw [show (info.withGroupRatio g).originModelName = info.originModelName from rfl, hAmount,
      hModelZero, mul_zero, zero_add]
    gcongr
  · have hCharged : info.priceData.modelRatio * info.priceData.groupRatioInfo.groupRatio ≠ 0 :=
      mul_ne_zero hModelPaid hPaid
    have hChargedMore : (info.withGroupRatio g).priceData.modelRatio *
        (info.withGroupRatio g).priceData.groupRatioInfo.groupRatio ≠ 0 :=
      mul_ne_zero hModelPaid hPositive.ne'
    rw [decide_eq_true hCharged, decide_eq_true hChargedMore,
      show (info.withGroupRatio g).originModelName = info.originModelName from rfl,
      openAiAmount_ratio ctx info u g]
    exact roundedQuota_charged_scale _ hGroup hLe

/-- Tokens that are counted as cached instead of plain do not cost more. -/
theorem summaryQuota_cached (hUsage : OpenAiUsage ctx u) (hByRatio : info.priceData.usePrice = false)
    (hModel : 0 ≤ info.priceData.modelRatio)
    (hGroup : 0 ≤ info.priceData.groupRatioInfo.groupRatio)
    (hCache : info.priceData.cacheRatio ≤ 1) {k : Int} (hk : 0 ≤ k) :
    summaryQuota ctx info { u with cachedTokens := u.cachedTokens + k } ≤ summaryQuota ctx info u := by
  have hRecounted : OpenAiUsage ctx { u with cachedTokens := u.cachedTokens + k } :=
    ⟨hUsage.semantic, hUsage.notLegacy⟩
  rw [summaryQuota_openAi hRecounted hByRatio, summaryQuota_openAi hUsage hByRatio]
  split
  · exact le_refl 0
  apply roundedQuota_mono
  apply openAiAmount_mono hModel hGroup
  · have hCast : (0 : ℚ) ≤ k := Int.cast_nonneg hk
    rw [weightedTokens_cached]
    nlinarith
  · rfl

end

/-- With a group ratio and prices that are not negative, the quota of a request is
bounded and monotone. -/
theorem text_quota_orderly (ctx : TextContext) (info : PriceInfo) (u : Usage)
    (hUsage : OpenAiUsage ctx u) (hNonneg : u.Nonneg) (hByRatio : info.priceData.usePrice = false)
    (hModel : 0 ≤ info.priceData.modelRatio) (hCompletion : 0 ≤ info.priceData.completionRatio)
    (hGroup : 0 ≤ info.priceData.groupRatioInfo.groupRatio) (hPrices : ctx.cfg.NonnegPrices) :
    OrderlyQuota ctx info u where
  zero hNone := by rw [summaryQuota_openAi hUsage hByRatio, if_pos hNone]
  bounds hSome hRatio := by
    rw [summaryQuota_openAi hUsage hByRatio, if_neg hSome.ne', decide_eq_true hRatio]
    exact roundedQuota_bounds _
  prompt n hn := by
    have hMore : ({ u with promptTokens := n } : Usage).Nonneg :=
      { hNonneg with promptTokens := le_trans hNonneg.promptTokens hn }
    have hUsageMore : OpenAiUsage ctx { u with promptTokens := n } :=
      ⟨hUsage.semantic, hUsage.notLegacy⟩
    apply summaryQuota_mono hPrices hByRatio hModel hGroup hUsage hUsageMore hNonneg hMore
    · dsimp only
      omega
    · intro audioPrice
      have hCast : (u.promptTokens : ℚ) ≤ n := Int.cast_le.mpr hn
      rw [weightedTokens_prompt audioPrice info.priceData u n]
      linarith
    · rfl
  completion n hn := by
    have hMore : ({ u with completionTokens := n } : Usage).Nonneg :=
      { hNonneg with completionTokens := le_trans hNonneg.completionTokens hn }
    have hUsageMore : OpenAiUsage ctx { u with completionTokens := n } :=
      ⟨hUsage.semantic, hUsage.notLegacy⟩
    apply summaryQuota_mono hPrices hByRatio hModel hGroup hUsage hUsageMore hNonneg hMore
    · dsimp only
      omega
    · intro audioPrice
      have hCast : (u.completionTokens : ℚ) ≤ n := Int.cast_le.mpr hn
      rw [weightedTokens_completion audioPrice info.priceData u n]
      nlinarith
    · rfl
  groupRatio g hg := summaryQuota_groupRatio hPrices hUsage hNonneg hByRatio hGroup hg
  cached hCache k hk _ := summaryQuota_cached hUsage hByRatio hModel hGroup hCache hk

/-! ## Negative settings -/

def ratioInfo (modelRatio groupRatio : ℚ) : PriceInfo :=
  { userId := 1
    isAdmin := false
    userGroup := "default"
    usingGroup := "default"
    originModelName := "m"
    acceptUnsetRatioModel := false
    finalPreConsumedQuota := 0
    priceData :=
      { PriceData.zero with
        modelRatio := modelRatio
        completionRatio := 1
        cacheRatio := 1
        imageRatio := 1
        groupRatioInfo := ⟨groupRatio, -1, false⟩ }
    tieredBillingSnapshot := none
    billingRequestInput := none
    hasChannelMeta := true }

def searchContext (price : ℚ) (searches : Int) : TextContext :=
  ⟨{ unitSettings with toolPrice := fun _ => price }, false, false, 0, none, searches, none⟩

theorem openAiUsage_estimated (price : ℚ) (searches n : Int) :
    OpenAiUsage (searchContext price searches) (.estimated n) :=
  ⟨by rfl, by rfl⟩

theorem nonneg_estimated {n : Int} (hn : 0 ≤ n) : (Usage.estimated n).Nonneg := by
  constructor <;> first | exact hn | exact le_refl 0

theorem openAiAmount_search (price modelRatio groupRatio : ℚ) (searches n : Int)
    (hSearches : 0 ≤ searches) :
    openAiAmount (searchContext price searches) "m" (ratioInfo modelRatio groupRatio).priceData
        (.estimated n) =
      (n * modelRatio + price * searches * 500) * groupRatio := by
  have hSuffix : endsWith "m" "search-preview" = false := by decide
  have hMax : max searches 0 = searches := max_eq_left hSearches
  simp [openAiAmount, weightedTokens, extraQuota, calculateTextToolCallSurcharge, webSearchQuota,
    imageGenerationQuota, toolCallQuota, audioInputQuota, baseTokens, weightedCacheCreation,
    PriceData.otherFactor, searchContext, ratioInfo, Usage.estimated, PriceData.zero, unitSettings,
    hSuffix, hMax, calledTimes]
  left
  ring

theorem summaryQuota_search (price modelRatio groupRatio : ℚ) {searches : Int} (n : Int)
    (hSearches : 0 ≤ searches) :
    summaryQuota (searchContext price searches) (ratioInfo modelRatio groupRatio) (.estimated n) =
      if n = 0 then 0
      else roundedQuota (decide (modelRatio * groupRatio ≠ 0))
        ((n * modelRatio + price * searches * 500) * groupRatio) := by
  rw [summaryQuota_openAi (openAiUsage_estimated price searches n) rfl,
    show (ratioInfo modelRatio groupRatio).originModelName = "m" from rfl,
    openAiAmount_search price modelRatio groupRatio searches n hSearches]
  simp [Usage.estimated, ratioInfo]

/-- A group ratio below zero costs the floor of one, more than the group ratio zero; and
a tool price below zero makes a request without a model ratio cost less than nothing. -/
theorem negative_settings_not_orderly :
    (OpenAiUsage (searchContext 0 0) (.estimated 1) ∧ (Usage.estimated 1).Nonneg ∧
      ¬ OrderlyQuota (searchContext 0 0) (ratioInfo 1 (-1)) (.estimated 1)) ∧
    OpenAiUsage (searchContext (-1) 1) (.estimated 0) ∧ (Usage.estimated 0).Nonneg ∧
      ¬ OrderlyQuota (searchContext (-1) 1) (ratioInfo 0 1) (.estimated 0) := by
  refine ⟨⟨openAiUsage_estimated _ _ _, nonneg_estimated (by decide), ?_⟩,
    openAiUsage_estimated _ _ _, nonneg_estimated (by decide), ?_⟩
  · intro hOrderly
    have hMore : summaryQuota (searchContext 0 0) (ratioInfo 1 (-1)) (.estimated 1) ≤
        summaryQuota (searchContext 0 0) (ratioInfo 1 0) (.estimated 1) :=
      hOrderly.groupRatio 0 (by norm_num [ratioInfo])
    rw [summaryQuota_search _ _ _ _ (le_refl 0), summaryQuota_search _ _ _ _ (le_refl 0)] at hMore
    norm_num [roundedQuota, quotaFromDecimal, roundHalfAway, saturateQuota, saturate, maxQuota,
      minQuota] at hMore
  · intro hOrderly
    have hMore : summaryQuota (searchContext (-1) 1) (ratioInfo 0 1) (.estimated 0) ≤
        summaryQuota (searchContext (-1) 1) (ratioInfo 0 1) (.estimated 1) :=
      hOrderly.prompt 1 (by decide)
    rw [summaryQuota_search _ _ _ _ (by decide), summaryQuota_search _ _ _ _ (by decide)] at hMore
    norm_num [roundedQuota, quotaFromDecimal, roundHalfAway, saturateQuota, saturate, maxQuota,
      minQuota] at hMore

theorem search_request_orderly :
    OrderlyQuota (searchContext 10 2) (ratioInfo 1 (1 / 2)) (.estimated 1000) := by
  have hPrices : (searchContext 10 2).cfg.NonnegPrices := by
    constructor <;> intros <;> norm_num [searchContext, unitSettings]
  exact text_quota_orderly _ _ _ (openAiUsage_estimated 10 2 1000) (nonneg_estimated (by decide)) rfl
    (by norm_num [ratioInfo]) (by norm_num [ratioInfo]) (by norm_num [ratioInfo]) hPrices

end Qapi.Pricing
