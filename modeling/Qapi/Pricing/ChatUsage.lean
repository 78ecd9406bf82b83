import Qapi.Pricing.Text

/-!
# The usage of a chat response behind the responses API

`UsageFromChatUsage` (`service/relayconvert/chat_to_responses_response.go`) and the two
handlers of `relay/channel/openai/responses_via_chat.go`, as far as they decide the usage
that is billed. The converter writes the details of the prompt into the input details of
the result; billing reads the prompt details.

`unaffected_iff` says for which usages no price can tell the difference.
-/

namespace Qapi.Pricing

open Qapi.Core Option

/-! ## The model -/

/-- `dto.InputTokenDetails`. -/
structure InputTokenDetails where
  cachedTokens : Int := 0
  cachedCreationTokens : Int := 0
  cacheWriteTokens : Int := 0
  textTokens : Int := 0
  audioTokens : Int := 0
  imageTokens : Int := 0
deriving DecidableEq, Repr

/-- `dto.OutputTokenDetails`. -/
structure OutputTokenDetails where
  textTokens : Int := 0
  audioTokens : Int := 0
  imageTokens : Int := 0
  reasoningTokens : Int := 0
deriving DecidableEq, Repr

/-- `dto.Usage`. -/
structure ChatUsage where
  promptTokens : Int := 0
  completionTokens : Int := 0
  totalTokens : Int := 0
  promptCacheHitTokens : Int := 0
  usageSemantic : String := ""
  usageSource : String := ""
  promptTokensDetails : InputTokenDetails := {}
  completionTokenDetails : OutputTokenDetails := {}
  inputTokens : Int := 0
  outputTokens : Int := 0
  inputTokensDetails : Option InputTokenDetails := none
  claudeCacheCreation5mTokens : Int := 0
  claudeCacheCreation1hTokens : Int := 0
  cost : Option ℚ := none
deriving DecidableEq, Repr

def ChatUsage.billed (u : ChatUsage) : Usage where
  promptTokens := u.promptTokens
  completionTokens := u.completionTokens
  usageSemantic := u.usageSemantic
  usageSource := u.usageSource
  cachedTokens := u.promptTokensDetails.cachedTokens
  cachedCreationTokens := u.promptTokensDetails.cachedCreationTokens
  imageTokens := u.promptTokensDetails.imageTokens
  audioTokens := u.promptTokensDetails.audioTokens
  outputImageTokens := u.completionTokenDetails.imageTokens
  outputAudioTokens := u.completionTokenDetails.audioTokens
  claudeCacheCreation5mTokens := u.claudeCacheCreation5mTokens
  claudeCacheCreation1hTokens := u.claudeCacheCreation1hTokens
  cost := u.cost.getD 0

/-- `UsageFromChatUsage`. -/
def usageFromChatUsage (src : ChatUsage) : ChatUsage :=
  let d := src.promptTokensDetails
  let o := src.completionTokenDetails
  let input := if src.promptTokens ≠ 0 then src.promptTokens else 0
  let output := if src.completionTokens ≠ 0 then src.completionTokens else 0
  { promptTokens := input
    inputTokens := input
    completionTokens := output
    outputTokens := output
    totalTokens := if src.totalTokens ≠ 0 then src.totalTokens else input + output
    inputTokensDetails :=
      if d.cachedTokens ≠ 0 ∨ d.imageTokens ≠ 0 ∨ d.audioTokens ≠ 0 ∨
        d.cachedCreationTokens ≠ 0 ∨ d.textTokens ≠ 0 then some d
      else none
    completionTokenDetails :=
      if o.reasoningTokens ≠ 0 ∨ o.textTokens ≠ 0 ∨ o.audioTokens ≠ 0 ∨ o.imageTokens ≠ 0 then o
      else {} }

/-- What the handlers know besides the response: the estimate of the prompt, and
`EstimateTokenByModel` for the upstream model. -/
structure UsageEnv where
  estimatePromptTokens : Int
  estimateTokenByModel : String → Int

def responseText2Usage (env : UsageEnv) (text : String) : ChatUsage :=
  let completion := env.estimateTokenByModel text
  { promptTokens := env.estimatePromptTokens
    completionTokens := completion
    totalTokens := env.estimatePromptTokens + completion }

/-- The usage that `OaiChatToResponsesHandler` returns for a chat response with this usage and
this output text. -/
def oaiChatToResponsesHandler (env : UsageEnv) (upstream : ChatUsage) (text : String) :
    ChatUsage :=
  let usage := usageFromChatUsage upstream
  if usage.totalTokens = 0 then responseText2Usage env text else usage

inductive StreamData
  | upstreamError
  | malformed
  | chunk (usage : Option ChatUsage) (contents : List String)
deriving DecidableEq, Repr

/-- What `ChatToResponsesStreamState` collects for billing. -/
structure UsageState where
  usage : ChatUsage := {}
  text : String := ""
deriving DecidableEq, Repr

def scanUsage : List StreamData → UsageState → Option UsageState
  | [], s => some s
  | .upstreamError :: _, _ => none
  | .malformed :: rest, s => scanUsage rest s
  | .chunk usage contents :: rest, s =>
    scanUsage rest
      { usage := match usage with
          | some u => usageFromChatUsage u
          | none => s.usage
        text := s.text ++ join contents "" }

/-- The usage that `OaiChatToResponsesStreamHandler` returns. -/
def oaiChatToResponsesStreamHandler (env : UsageEnv) (data : List StreamData) :
    Option ChatUsage :=
  (scanUsage data {}).map fun s =>
    if s.usage.totalTokens = 0 then responseText2Usage env s.text else s.usage

/-! ## What billing reads of the converted usage -/

/-- A usage without the fields that the chat completions API does not have. -/
structure ChatUsage.Plain (u : ChatUsage) : Prop where
  semantic : u.usageSemantic = ""
  source : u.usageSource = ""
  claude5m : u.claudeCacheCreation5mTokens = 0
  claude1h : u.claudeCacheCreation1hTokens = 0
  cost : u.cost = none

/-- Nothing of the prompt was cached, an image or audio. -/
structure ChatUsage.NoDetails (u : ChatUsage) : Prop where
  cached : u.promptTokensDetails.cachedTokens = 0
  created : u.promptTokensDetails.cachedCreationTokens = 0
  image : u.promptTokensDetails.imageTokens = 0
  audio : u.promptTokensDetails.audioTokens = 0

theorem usageFromChatUsage_prompt (u : ChatUsage) :
    (usageFromChatUsage u).promptTokens = u.promptTokens := by
  unfold usageFromChatUsage
  split
  · rfl
  · rename_i hZero
    exact (not_not.mp hZero).symm

theorem usageFromChatUsage_completion (u : ChatUsage) :
    (usageFromChatUsage u).completionTokens = u.completionTokens := by
  unfold usageFromChatUsage
  dsimp only
  split
  · rfl
  · rename_i hZero
    exact (not_not.mp hZero).symm

theorem usageFromChatUsage_total (u : ChatUsage) : (usageFromChatUsage u).totalTokens =
    if u.totalTokens ≠ 0 then u.totalTokens else u.promptTokens + u.completionTokens := by
  have hPrompt := usageFromChatUsage_prompt u
  have hCompletion := usageFromChatUsage_completion u
  simp only [usageFromChatUsage] at hPrompt hCompletion ⊢
  rw [hPrompt, hCompletion]

theorem usageFromChatUsage_completionDetails (u : ChatUsage) :
    (usageFromChatUsage u).completionTokenDetails.imageTokens =
        u.completionTokenDetails.imageTokens ∧
      (usageFromChatUsage u).completionTokenDetails.audioTokens =
        u.completionTokenDetails.audioTokens := by
  unfold usageFromChatUsage
  dsimp only
  split
  · exact ⟨rfl, rfl⟩
  · rename_i hNone
    simp only [not_or, not_not] at hNone
    exact ⟨hNone.2.2.2.symm, hNone.2.2.1.symm⟩

theorem billed_usageFromChatUsage {u : ChatUsage} (hPlain : u.Plain) :
    (usageFromChatUsage u).billed =
      { u.billed with cachedTokens := 0, cachedCreationTokens := 0, imageTokens := 0
                      audioTokens := 0 } := by
  obtain ⟨hImage, hAudio⟩ := usageFromChatUsage_completionDetails u
  simp only [ChatUsage.billed, usageFromChatUsage_prompt, usageFromChatUsage_completion, hImage,
    hAudio, hPlain.semantic, hPlain.source, hPlain.claude5m, hPlain.claude1h, hPlain.cost]
  rfl

theorem billed_eq_of_noDetails {u : ChatUsage} (hPlain : u.Plain) (h : u.NoDetails) :
    (usageFromChatUsage u).billed = u.billed := by
  rw [billed_usageFromChatUsage hPlain]
  simp only [ChatUsage.billed, h.cached, h.created, h.image, h.audio]

theorem quota_of_no_tokens (ctx : TextContext) (info : PriceInfo) {u : Usage}
    (h : u.promptTokens + u.completionTokens = 0) :
    (calculateTextQuotaSummary ctx info (some u)).quota = 0 := by
  simp only [calculateTextQuotaSummary, getD_some]
  rw [if_pos h]

/-! ## Prices that tell usages apart -/

/-- A context without tool calls; the price of audio input and the quota of a unit are free. -/
def probeContext (audioPrice quotaPerUnit : ℚ) (estimatePromptTokens : Int) : TextContext where
  cfg := { unitSettings with geminiInputAudioPrice := fun _ => audioPrice
                             quotaPerUnit := quotaPerUnit }
  finalFormatIsClaude := false
  channelIsOpenRouter := false
  estimatePromptTokens := estimatePromptTokens
  responsesUsageInfo := none
  claudeWebSearchRequests := 0
  imageGenerationCall := none

/-- A model at ratio one, with free ratios for the details. -/
def probeInfo (cacheRatio cacheCreationRatio imageRatio : ℚ) : PriceInfo where
  userId := 1
  isAdmin := false
  userGroup := "default"
  usingGroup := "default"
  originModelName := "gpt-4o"
  acceptUnsetRatioModel := false
  finalPreConsumedQuota := 0
  priceData := { PriceData.zero with
    modelRatio := 1
    completionRatio := 1
    cacheRatio := cacheRatio
    cacheCreationRatio := cacheCreationRatio
    imageRatio := imageRatio
    groupRatioInfo := ⟨1, -1, false⟩ }
  tieredBillingSnapshot := none
  billingRequestInput := none
  hasChannelMeta := true

def settled (value : ℚ) : Int :=
  let quota := quotaFromDecimal (if value ≤ 0 then 1 else value)
  if quota = 0 then 1 else quota

def weighted (audioPrice quotaPerUnit cacheRatio cacheCreationRatio imageRatio : ℚ) (u : Usage) :
    ℚ :=
  let priced := u.audioTokens ≠ 0 ∧ audioPrice > 0
  u.promptTokens + u.completionTokens + u.cachedTokens * (cacheRatio - 1) +
    u.cachedCreationTokens * (cacheCreationRatio - 1) + u.imageTokens * (imageRatio - 1) +
    if priced then u.audioTokens * (audioPrice / 1000000 * quotaPerUnit - 1) else 0

theorem probe_surcharge (audioPrice quotaPerUnit groupRatio : ℚ) (estimate : Int) :
    calculateTextToolCallSurcharge (probeContext audioPrice quotaPerUnit estimate) "gpt-4o"
      groupRatio = 0 := by
  have hName : endsWith "gpt-4o" "search-preview" = false := by decide
  simp [calculateTextToolCallSurcharge, probeContext, webSearchQuota, hName, toolCallQuota,
    unitSettings, imageGenerationQuota]

theorem probe_byRatio {u : Usage} (h5m : u.claudeCacheCreation5mTokens = 0)
    (h1h : u.claudeCacheCreation1hTokens = 0)
    (audioPrice quotaPerUnit cacheRatio cacheCreationRatio imageRatio : ℚ) (estimate : Int) :
    textQuotaByRatio (probeContext audioPrice quotaPerUnit estimate) "gpt-4o"
        (probeInfo cacheRatio cacheCreationRatio imageRatio).priceData false false u =
      if weighted audioPrice quotaPerUnit cacheRatio cacheCreationRatio imageRatio u ≤ 0 then 1
      else weighted audioPrice quotaPerUnit cacheRatio cacheCreationRatio imageRatio u := by
  have hPrompt : billedPrompt (probeContext audioPrice quotaPerUnit estimate) false "gpt-4o"
      (probeInfo cacheRatio cacheCreationRatio imageRatio).priceData u =
      (u.promptTokens, u.cachedCreationTokens) := by
    simp [billedPrompt]
  have hCreation : weightedCacheCreation false
      (probeInfo cacheRatio cacheCreationRatio imageRatio).priceData u.cachedCreationTokens u =
      u.cachedCreationTokens * cacheCreationRatio := by
    unfold weightedCacheCreation
    by_cases hZero : u.cachedCreationTokens = 0
    · simp [hZero, h5m, h1h]
    · simp [hZero, probeInfo]
  have hSum : (baseTokens false audioPrice u.promptTokens u.cachedCreationTokens u : ℚ) +
      u.cachedTokens * cacheRatio + u.imageTokens * imageRatio +
        u.cachedCreationTokens * cacheCreationRatio + u.completionTokens +
        audioInputQuota (probeContext audioPrice quotaPerUnit estimate).cfg audioPrice u 1 =
      weighted audioPrice quotaPerUnit cacheRatio cacheCreationRatio imageRatio u := by
    unfold baseTokens audioInputQuota weighted
    by_cases hAudio : u.audioTokens ≠ 0 ∧ audioPrice > 0
    · simp only [if_pos hAudio, probeContext]
      push_cast
      ring
    · simp only [if_neg hAudio, probeContext]
      push_cast
      ring
  unfold textQuotaByRatio
  rw [hPrompt]
  simp only [probe_surcharge, Bool.or_self, hCreation]
  simp only [probeInfo, PriceData.zero, PriceData.applyOtherRatiosToDecimal, List.foldl_nil,
    mul_one, add_zero, ne_eq, one_ne_zero, not_false_eq_true, true_and]
  rw [← hSum]
  rfl

theorem probe_quota {u : Usage} (hSemantic : u.usageSemantic = "")
    (h5m : u.claudeCacheCreation5mTokens = 0) (h1h : u.claudeCacheCreation1hTokens = 0)
    (hTokens : u.promptTokens + u.completionTokens ≠ 0)
    (audioPrice quotaPerUnit cacheRatio cacheCreationRatio imageRatio : ℚ) (estimate : Int) :
    (calculateTextQuotaSummary (probeContext audioPrice quotaPerUnit estimate)
        (probeInfo cacheRatio cacheCreationRatio imageRatio) (some u)).quota =
      settled (weighted audioPrice quotaPerUnit cacheRatio cacheCreationRatio imageRatio u) := by
  have hClaude : (usageSemanticFromUsage (probeContext audioPrice quotaPerUnit estimate)
      (some u) == "anthropic") = false := by
    simp [usageSemanticFromUsage, hSemantic, probeContext]
  have hLegacy : isLegacyClaudeDerivedOpenAIUsage
      (probeContext audioPrice quotaPerUnit estimate) u = false := by
    simp [isLegacyClaudeDerivedOpenAIUsage, h5m, h1h]
  have hPrice : (probeInfo cacheRatio cacheCreationRatio imageRatio).priceData.usePrice = false :=
    rfl
  have hRatio : (probeInfo cacheRatio cacheCreationRatio imageRatio).priceData.modelRatio *
      (probeInfo cacheRatio cacheCreationRatio imageRatio).priceData.groupRatioInfo.groupRatio ≠
        0 := by
    simp [probeInfo]
  have hName : (probeInfo cacheRatio cacheCreationRatio imageRatio).originModelName = "gpt-4o" :=
    rfl
  unfold calculateTextQuotaSummary
  dsimp only
  rw [getD_some, if_neg hTokens, hClaude, hLegacy, hPrice, hName]
  simp only [Bool.false_eq_true, if_false, probe_byRatio h5m h1h, hRatio, ne_eq,
    not_false_eq_true, true_and]
  rfl

theorem settled_intCast {n : Int} (hPos : 0 < n) (hMax : n < maxQuota) : settled n = n := by
  have hPositive : (0 : ℚ) < n := by exact_mod_cast hPos
  have hRound : roundHalfAway n = n := by
    rw [roundHalfAway, if_pos hPositive.le, Int.floor_eq_iff]
    constructor
    · linarith
    · linarith
  have hKept : quotaFromDecimal n = n := by
    unfold maxQuota at hMax
    rw [quotaFromDecimal, hRound, saturateQuota, saturate, if_neg, if_neg]
    · unfold minQuota
      omega
    · unfold maxQuota
      omega
  simp only [settled, if_neg (not_le.mpr hPositive), hKept]
  exact if_neg hPos.ne'

theorem exists_settled_ne (quota : Int) : ∃ value, settled value ≠ quota := by
  have hFive : settled (5 : Int) = 5 := settled_intCast (by decide) (by decide)
  have hSeven : settled (7 : Int) = 7 := settled_intCast (by decide) (by decide)
  by_cases hQuota : quota = 5
  · refine ⟨(7 : Int), ?_⟩
    rw [hSeven, hQuota]
    decide
  · refine ⟨(5 : Int), ?_⟩
    rw [hFive]
    exact Ne.symm hQuota

/-- If every value can be reached by some prices, some prices tell the two usages apart. -/
theorem exists_quota_ne {u v : Usage} (hu : u.usageSemantic = "")
    (hu5m : u.claudeCacheCreation5mTokens = 0) (hu1h : u.claudeCacheCreation1hTokens = 0)
    (huTokens : u.promptTokens + u.completionTokens ≠ 0) (quota : Int) (estimate : Int)
    (hQuota : ∀ audioPrice quotaPerUnit cacheRatio cacheCreationRatio imageRatio,
      (calculateTextQuotaSummary (probeContext audioPrice quotaPerUnit estimate)
        (probeInfo cacheRatio cacheCreationRatio imageRatio) (some v)).quota = quota)
    (hReach : ∀ value, ∃ audioPrice quotaPerUnit cacheRatio cacheCreationRatio imageRatio,
      weighted audioPrice quotaPerUnit cacheRatio cacheCreationRatio imageRatio u = value) :
    ∃ ctx info, (calculateTextQuotaSummary ctx info (some v)).quota ≠
      (calculateTextQuotaSummary ctx info (some u)).quota := by
  obtain ⟨value, hValue⟩ := exists_settled_ne quota
  obtain ⟨audioPrice, quotaPerUnit, cacheRatio, cacheCreationRatio, imageRatio, hReached⟩ :=
    hReach value
  refine ⟨probeContext audioPrice quotaPerUnit estimate,
    probeInfo cacheRatio cacheCreationRatio imageRatio, ?_⟩
  rw [hQuota, probe_quota hu hu5m hu1h huTokens, hReached]
  exact Ne.symm hValue

/-- Every weight of a usage with details can be reached. -/
theorem exists_weighted_eq {u : Usage}
    (h : ¬ (u.cachedTokens = 0 ∧ u.cachedCreationTokens = 0 ∧ u.imageTokens = 0 ∧
      u.audioTokens = 0)) (value : ℚ) :
    ∃ audioPrice quotaPerUnit cacheRatio cacheCreationRatio imageRatio,
      weighted audioPrice quotaPerUnit cacheRatio cacheCreationRatio imageRatio u = value := by
  generalize hPlain : (u.promptTokens + u.completionTokens : ℚ) = plain
  have hRest : ∀ x : Int, x ≠ 0 → (x : ℚ) * ((value - plain) / x) = value - plain := by
    intro x hx
    exact mul_div_cancel₀ _ (by exact_mod_cast hx)
  by_cases hCached : u.cachedTokens = 0
  · by_cases hCreated : u.cachedCreationTokens = 0
    · by_cases hImage : u.imageTokens = 0
      · -- audio input at a million a token, so that the unit is its price
        have hAudio : u.audioTokens ≠ 0 := fun hAudio => h ⟨hCached, hCreated, hImage, hAudio⟩
        refine ⟨1000000, 1 + (value - plain) / u.audioTokens, 1, 1, 1, ?_⟩
        simp [weighted, hPlain, hCached, hCreated, hImage, hAudio, hRest _ hAudio]
      · refine ⟨0, 1, 1, 1, 1 + (value - plain) / u.imageTokens, ?_⟩
        simp [weighted, hPlain, hCached, hCreated, hRest _ hImage]
    · refine ⟨0, 1, 1, 1 + (value - plain) / u.cachedCreationTokens, 1, ?_⟩
      simp [weighted, hPlain, hCached, hRest _ hCreated]
  · refine ⟨0, 1, 1 + (value - plain) / u.cachedTokens, 1, 1, ?_⟩
    simp [weighted, hPlain, hRest _ hCached]

/-! ## When billing is unaffected -/

def reportedUsage : List StreamData → Option ChatUsage
  | [] => none
  | .chunk usage _ :: rest => (reportedUsage rest).or usage
  | _ :: rest => reportedUsage rest

theorem scanUsage_usage {data : List StreamData} {s t : UsageState}
    (h : scanUsage data s = some t) :
    t.usage = ((reportedUsage data).map usageFromChatUsage).getD s.usage := by
  induction data generalizing s with
  | nil =>
    cases h
    rfl
  | cons d rest ih =>
    cases d with
    | upstreamError => cases h
    | malformed => exact ih h
    | chunk usage contents =>
      rw [ih h, reportedUsage]
      cases reportedUsage rest with
      | some u => rfl
      | none =>
        cases usage with
        | some u => rfl
        | none => rfl

/-- The usages that the handlers return for an upstream usage are billed as the upstream usage
would be, whatever the prices. -/
structure BillingUnaffected (u : ChatUsage) : Prop where
  whole : ∀ env text ctx info, env.estimatePromptTokens = ctx.estimatePromptTokens →
    (calculateTextQuotaSummary ctx info (some (oaiChatToResponsesHandler env u text).billed)).quota
      = (calculateTextQuotaSummary ctx info (some u.billed)).quota
  streamed : ∀ env data out ctx info, env.estimatePromptTokens = ctx.estimatePromptTokens →
    reportedUsage data = some u → oaiChatToResponsesStreamHandler env data = some out →
    (calculateTextQuotaSummary ctx info (some out.billed)).quota =
      (calculateTextQuotaSummary ctx info (some u.billed)).quota

/-- The usage reports tokens, and no details that billing would read. -/
structure ChatUsage.Transparent (u : ChatUsage) : Prop where
  reported : u.totalTokens ≠ 0 ∨ u.promptTokens + u.completionTokens ≠ 0
  details : u.promptTokens + u.completionTokens = 0 ∨ u.NoDetails

theorem converted_total_ne_zero {u : ChatUsage}
    (h : u.totalTokens ≠ 0 ∨ u.promptTokens + u.completionTokens ≠ 0) :
    (usageFromChatUsage u).totalTokens ≠ 0 := by
  rw [usageFromChatUsage_total]
  split
  · assumption
  · rename_i hZero
    exact h.resolve_left hZero

theorem converted_quota {u : ChatUsage} (hPlain : u.Plain)
    (h : u.promptTokens + u.completionTokens = 0 ∨ u.NoDetails) (ctx : TextContext)
    (info : PriceInfo) :
    (calculateTextQuotaSummary ctx info (some (usageFromChatUsage u).billed)).quota =
      (calculateTextQuotaSummary ctx info (some u.billed)).quota := by
  rcases h with hNone | hDetails
  · have hConverted : (usageFromChatUsage u).billed.promptTokens +
        (usageFromChatUsage u).billed.completionTokens = 0 := by
      rw [billed_usageFromChatUsage hPlain]
      exact hNone
    have hBilled : u.billed.promptTokens + u.billed.completionTokens = 0 := hNone
    rw [quota_of_no_tokens ctx info hConverted, quota_of_no_tokens ctx info hBilled]
  · rw [billed_eq_of_noDetails hPlain hDetails]

theorem exists_quota_ne_of_details {u : ChatUsage} (hPlain : u.Plain)
    (hTokens : u.promptTokens + u.completionTokens ≠ 0) (hDetails : ¬ u.NoDetails) :
    ∃ ctx info,
      (calculateTextQuotaSummary ctx info (some (usageFromChatUsage u).billed)).quota ≠
        (calculateTextQuotaSummary ctx info (some u.billed)).quota := by
  have hSome : ¬ (u.billed.cachedTokens = 0 ∧ u.billed.cachedCreationTokens = 0 ∧
      u.billed.imageTokens = 0 ∧ u.billed.audioTokens = 0) := by
    rintro ⟨hCached, hCreated, hImage, hAudio⟩
    exact hDetails ⟨hCached, hCreated, hImage, hAudio⟩
  apply exists_quota_ne hPlain.semantic hPlain.claude5m hPlain.claude1h hTokens
    (settled (u.promptTokens + u.completionTokens : Int)) 0
  · intro audioPrice quotaPerUnit cacheRatio cacheCreationRatio imageRatio
    rw [billed_usageFromChatUsage hPlain, probe_quota hPlain.semantic hPlain.claude5m
      hPlain.claude1h hTokens]
    simp [weighted, ChatUsage.billed]
  · exact exists_weighted_eq hSome

/-- Behind the responses API a chat usage is billed as it would be itself if and only if it
reports tokens and has no details of the prompt. -/
theorem unaffected_iff (u : ChatUsage) (hPlain : u.Plain) : BillingUnaffected u ↔ u.Transparent := by
  constructor
  · intro h
    have hReported : u.totalTokens ≠ 0 ∨ u.promptTokens + u.completionTokens ≠ 0 := by
      by_contra hNone
      simp only [not_or, not_not] at hNone
      -- an estimate of one token costs something, no token at all does not
      have hWhole := h.whole ⟨1, fun _ => 0⟩ "" (probeContext 0 1 1) (probeInfo 1 1 1) rfl
      have hTotal : (usageFromChatUsage u).totalTokens = 0 := by
        rw [usageFromChatUsage_total, if_neg (not_not.mpr hNone.1), hNone.2]
      have hBilled : u.billed.promptTokens + u.billed.completionTokens = 0 := hNone.2
      rw [quota_of_no_tokens _ _ hBilled, oaiChatToResponsesHandler] at hWhole
      simp only [hTotal, if_true] at hWhole
      have hOne : weighted 0 1 1 1 1 (responseText2Usage ⟨1, fun _ => 0⟩ "").billed =
          (1 : Int) := by
        simp [weighted, responseText2Usage, ChatUsage.billed]
      rw [probe_quota rfl rfl rfl (by decide), hOne,
        settled_intCast (by decide) (by decide)] at hWhole
      cases hWhole
    refine ⟨hReported, ?_⟩
    by_contra hBoth
    rw [not_or] at hBoth
    obtain ⟨ctx, info, hne⟩ := exists_quota_ne_of_details hPlain hBoth.1 hBoth.2
    apply hne
    have hWhole := h.whole ⟨ctx.estimatePromptTokens, fun _ => 0⟩ "" ctx info rfl
    rwa [oaiChatToResponsesHandler, if_neg (converted_total_ne_zero hReported)] at hWhole
  · rintro ⟨hReported, hDetails⟩
    have hTotal := converted_total_ne_zero hReported
    constructor
    · intro env text ctx info _
      rw [oaiChatToResponsesHandler, if_neg hTotal]
      exact converted_quota hPlain hDetails ctx info
    · intro env data out ctx info _ hData hOut
      obtain ⟨s, hScan, rfl⟩ := map_eq_some_iff.mp hOut
      have hUsage := scanUsage_usage hScan
      rw [hData, map_some, getD_some] at hUsage
      rw [hUsage, if_neg hTotal]
      exact converted_quota hPlain hDetails ctx info

def sampleUsage (cachedTokens : Int) : ChatUsage where
  promptTokens := 1000
  completionTokens := 100
  totalTokens := 1100
  promptTokensDetails := { cachedTokens := cachedTokens }

theorem sampleUsage_plain (cachedTokens : Int) : (sampleUsage cachedTokens).Plain :=
  ⟨rfl, rfl, rfl, rfl, rfl⟩

theorem uncached_usage_unaffected : BillingUnaffected (sampleUsage 0) :=
  (unaffected_iff (sampleUsage 0) (sampleUsage_plain 0)).mpr
    ⟨Or.inl (by decide), Or.inr ⟨rfl, rfl, rfl, rfl⟩⟩

/-- Cached tokens at a tenth of the price are billed in full. -/
theorem cache_discount_is_lost :
    (calculateTextQuotaSummary (probeContext 0 1 0) (probeInfo (1 / 10) 1 1)
        (some (oaiChatToResponsesHandler ⟨0, fun _ => 0⟩ (sampleUsage 800) "").billed)).quota =
        1100 ∧
      (calculateTextQuotaSummary (probeContext 0 1 0) (probeInfo (1 / 10) 1 1)
        (some (sampleUsage 800).billed)).quota = 380 ∧
      ¬ BillingUnaffected (sampleUsage 800) := by
  have hConverted : weighted 0 1 (1 / 10) 1 1
      (oaiChatToResponsesHandler ⟨0, fun _ => 0⟩ (sampleUsage 800) "").billed =
        (1100 : Int) := by
    have hBilled : (oaiChatToResponsesHandler ⟨0, fun _ => 0⟩ (sampleUsage 800) "").billed =
        (sampleUsage 0).billed := by
      decide
    rw [hBilled]
    norm_num [weighted, sampleUsage, ChatUsage.billed]
  have hUpstream : weighted 0 1 (1 / 10) 1 1 (sampleUsage 800).billed = (380 : Int) := by
    norm_num [weighted, sampleUsage, ChatUsage.billed]
  have hFull : (calculateTextQuotaSummary (probeContext 0 1 0) (probeInfo (1 / 10) 1 1)
      (some (oaiChatToResponsesHandler ⟨0, fun _ => 0⟩ (sampleUsage 800) "").billed)).quota =
      1100 := by
    rw [probe_quota rfl rfl rfl (by decide), hConverted,
      settled_intCast (by decide) (by decide)]
  have hDiscount : (calculateTextQuotaSummary (probeContext 0 1 0) (probeInfo (1 / 10) 1 1)
      (some (sampleUsage 800).billed)).quota = 380 := by
    rw [probe_quota rfl rfl rfl (by decide), hUpstream, settled_intCast (by decide) (by decide)]
  refine ⟨hFull, hDiscount, ?_⟩
  intro h
  have hSame := h.whole ⟨0, fun _ => 0⟩ "" (probeContext 0 1 0) (probeInfo (1 / 10) 1 1) rfl
  rw [hFull, hDiscount] at hSame
  cases hSame

end Qapi.Pricing
