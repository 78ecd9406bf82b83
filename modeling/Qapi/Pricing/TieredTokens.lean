import Qapi.Pricing.Text

/-!
# The tokens that a billing expression is given

`BuildTieredTokenParams` cuts the tokens of a usage into the variables of a billing
expression. Under the OpenAI semantic the parts that have a variable of their own are
taken out of the prompt and the completion, and nothing is lost. Under the Claude
semantic the cache creation is given by its two parts. Ratio billing counts what the
total has over these parts as well, as `NormalizeCacheCreationSplit` does; the
parameters of an expression do not.
-/

namespace Qapi.Pricing

open Qapi.Core

/-! ## Cache creation in ratio billing -/

/-- `NormalizeCacheCreationSplit`: what the total has over the parts goes to the first. -/
def normalizeCacheCreationSplit (totalTokens tokens5m tokens1h : Int) : Int × Int :=
  (tokens5m + max (totalTokens - tokens5m - tokens1h) 0, tokens1h)

/-- `cacheWriteTokensTotal`, of the three counts of the summary. -/
def cacheWriteTokensTotal (creation split5m split1h : Int) : Int :=
  if split5m > 0 ∨ split1h > 0 then
    if creation > split5m + split1h then creation else split5m + split1h
  else creation

def isClaudeUsageSemantic (ctx : TextContext) (u : Usage) : Bool :=
  usageSemanticFromUsage ctx (some u) == "anthropic"

def billedCacheCreation (ctx : TextContext) (modelName : String) (p : PriceData) (u : Usage) : Int :=
  (billedPrompt ctx (isClaudeUsageSemantic ctx u) modelName p u).2

def chargedCacheCreation (ctx : TextContext) (modelName : String) (p : PriceData) (u : Usage) : Int :=
  let split := normalizeCacheCreationSplit (billedCacheCreation ctx modelName p u)
    u.claudeCacheCreation5mTokens u.claudeCacheCreation1hTokens
  split.1 + split.2

theorem split_sum (total tokens5m tokens1h : Int) :
    (normalizeCacheCreationSplit total tokens5m tokens1h).1 +
      (normalizeCacheCreationSplit total tokens5m tokens1h).2 = max total (tokens5m + tokens1h) := by
  unfold normalizeCacheCreationSplit
  omega

theorem cacheWriteTokensTotal_eq {creation split5m split1h : Int} (h5m : 0 ≤ split5m)
    (h1h : 0 ≤ split1h) (hCreation : 0 ≤ creation) :
    cacheWriteTokensTotal creation split5m split1h = max creation (split5m + split1h) := by
  unfold cacheWriteTokensTotal
  split
  · split <;> omega
  · omega

/-- Billing by ratio weighs exactly the tokens of the split: those that the total has
over the parts at the plain rate, the parts at their own. -/
theorem weightedCacheCreation_eq (p : PriceData) (creation : Int) (u : Usage) (r : ℚ)
    (h5m : 0 ≤ u.claudeCacheCreation5mTokens) (h1h : 0 ≤ u.claudeCacheCreation1hTokens)
    (hCreation : 0 ≤ creation) (hPlain : p.cacheCreationRatio = r)
    (hFive : p.cacheCreation5mRatio = r) (hHour : p.cacheCreation1hRatio = r) :
    weightedCacheCreation true p creation u =
      cacheWriteTokensTotal creation u.claudeCacheCreation5mTokens
        u.claudeCacheCreation1hTokens * r := by
  rw [cacheWriteTokensTotal_eq h5m h1h hCreation]
  unfold weightedCacheCreation
  dsimp only
  split
  next hNone =>
    have hZero : max creation (u.claudeCacheCreation5mTokens + u.claudeCacheCreation1hTokens) = 0 := by
      omega
    rw [hZero]
    simp
  next =>
    rw [if_pos rfl, hPlain, hFive, hHour, ← add_mul, ← add_mul]
    congr 1
    have hSum : max (creation - u.claudeCacheCreation5mTokens - u.claudeCacheCreation1hTokens) 0 +
        u.claudeCacheCreation5mTokens + u.claudeCacheCreation1hTokens =
        max creation (u.claudeCacheCreation5mTokens + u.claudeCacheCreation1hTokens) := by
      omega
    rw [← hSum]
    push_cast
    ring

/-! ## The parameters -/

structure Usage.Nonneg (u : Usage) : Prop where
  promptTokens : 0 ≤ u.promptTokens
  completionTokens : 0 ≤ u.completionTokens
  cachedTokens : 0 ≤ u.cachedTokens
  cachedCreationTokens : 0 ≤ u.cachedCreationTokens
  imageTokens : 0 ≤ u.imageTokens
  audioTokens : 0 ≤ u.audioTokens
  outputImageTokens : 0 ≤ u.outputImageTokens
  outputAudioTokens : 0 ≤ u.outputAudioTokens
  claudeCacheCreation5mTokens : 0 ≤ u.claudeCacheCreation5mTokens
  claudeCacheCreation1hTokens : 0 ≤ u.claudeCacheCreation1hTokens

structure TokenParams.Nonneg (t : TokenParams) : Prop where
  p : 0 ≤ t.p
  c : 0 ≤ t.c
  len : 0 ≤ t.len
  cr : 0 ≤ t.cr
  cc : 0 ≤ t.cc
  cc1h : 0 ≤ t.cc1h
  img : 0 ≤ t.img
  imgO : 0 ≤ t.imgO
  ai : 0 ≤ t.ai
  ao : 0 ≤ t.ao

def TokenParams.inputParts (t : TokenParams) : List (String × ℚ) :=
  [("cr", t.cr), ("cc", t.cc), ("cc1h", t.cc1h), ("img", t.img), ("ai", t.ai)]

def TokenParams.outputParts (t : TokenParams) : List (String × ℚ) :=
  [("img_o", t.imgO), ("ao", t.ao)]

def referenced (usedVars : List String) (parts : List (String × ℚ)) : ℚ :=
  ((parts.filter fun part => part.1 ∈ usedVars).map (·.2)).sum

@[simp]
theorem referenced_nil (usedVars : List String) : referenced usedVars [] = 0 := rfl

@[simp]
theorem referenced_cons (usedVars : List String) (name : String) (x : ℚ)
    (parts : List (String × ℚ)) :
    referenced usedVars ((name, x) :: parts) =
      (if name ∈ usedVars then x else 0) + referenced usedVars parts := by
  unfold referenced
  by_cases h : name ∈ usedVars <;> simp [h]

theorem buildTieredTokenParams_nonneg {u : Usage} (h : u.Nonneg) (isClaude : Bool)
    (usedVars : List String) : (buildTieredTokenParams u isClaude usedVars).Nonneg := by
  have hPrompt : (0 : ℚ) ≤ u.promptTokens := Int.cast_nonneg h.promptTokens
  have hCached : (0 : ℚ) ≤ u.cachedTokens := Int.cast_nonneg h.cachedTokens
  have hCreated : (0 : ℚ) ≤ u.cachedCreationTokens := Int.cast_nonneg h.cachedCreationTokens
  have hFive : (0 : ℚ) ≤ u.claudeCacheCreation5mTokens :=
    Int.cast_nonneg h.claudeCacheCreation5mTokens
  have hHour : (0 : ℚ) ≤ u.claudeCacheCreation1hTokens :=
    Int.cast_nonneg h.claudeCacheCreation1hTokens
  have hCc : 0 ≤ (buildTieredTokenParams u isClaude usedVars).cc := by
    dsimp only [buildTieredTokenParams]
    split
    · exact hFive
    · exact hCreated
  have hCc1h : 0 ≤ (buildTieredTokenParams u isClaude usedVars).cc1h := by
    dsimp only [buildTieredTokenParams]
    split
    · exact hHour
    · exact le_refl 0
  refine ⟨le_max_right _ _, le_max_right _ _, ?_, hCached, hCc, hCc1h,
    Int.cast_nonneg h.imageTokens, Int.cast_nonneg h.outputImageTokens,
    Int.cast_nonneg h.audioTokens, Int.cast_nonneg h.outputAudioTokens⟩
  dsimp only [buildTieredTokenParams] at hCc hCc1h ⊢
  split
  · linarith
  · exact hPrompt

theorem buildTieredTokenParams_input (u : Usage) (usedVars : List String) :
    (buildTieredTokenParams u false usedVars).p = max (u.promptTokens -
      referenced usedVars (buildTieredTokenParams u false usedVars).inputParts) 0 := by
  simp only [TokenParams.inputParts, referenced_cons, referenced_nil]
  simp only [buildTieredTokenParams, Bool.not_false, true_and]
  congr 1
  ring

theorem buildTieredTokenParams_output (u : Usage) (usedVars : List String) :
    (buildTieredTokenParams u false usedVars).c = max (u.completionTokens -
      referenced usedVars (buildTieredTokenParams u false usedVars).outputParts) 0 := by
  simp only [TokenParams.outputParts, referenced_cons, referenced_nil]
  simp only [buildTieredTokenParams, Bool.not_false, true_and]
  congr 1
  ring

/-- The cache creation that an expression sees: the two parts of a usage that is marked
as Claude's, the total of any other. -/
theorem buildTieredTokenParams_created (u : Usage) (isClaude : Bool) (usedVars : List String) :
    (buildTieredTokenParams u isClaude usedVars).cc +
        (buildTieredTokenParams u isClaude usedVars).cc1h =
      ((if u.usageSemantic = "anthropic" then
        u.claudeCacheCreation5mTokens + u.claudeCacheCreation1hTokens
        else u.cachedCreationTokens : Int) : ℚ) := by
  simp only [buildTieredTokenParams]
  split <;> simp

/-! ## Conservation -/

/-- The parameters are a partition of the usage. -/
structure ConservesTokens (ctx : TextContext) (modelName : String) (p : PriceData) (u : Usage)
    (usedVars : List String) (t : TokenParams) : Prop where
  nonneg : t.Nonneg
  input : isClaudeUsageSemantic ctx u = false →
    referenced usedVars t.inputParts ≤ u.promptTokens →
      t.p + referenced usedVars t.inputParts = u.promptTokens
  output : isClaudeUsageSemantic ctx u = false →
    referenced usedVars t.outputParts ≤ u.completionTokens →
      t.c + referenced usedVars t.outputParts = u.completionTokens
  created : isClaudeUsageSemantic ctx u = true →
    t.cc + t.cc1h = chargedCacheCreation ctx modelName p u

/-- The cache creation is reported in full by the fields that an expression is given. -/
def ReportedInFull (ctx : TextContext) (modelName : String) (p : PriceData) (u : Usage) : Prop :=
  if u.usageSemantic = "anthropic" then
    billedCacheCreation ctx modelName p u ≤
      u.claudeCacheCreation5mTokens + u.claudeCacheCreation1hTokens
  else
    u.claudeCacheCreation5mTokens + u.claudeCacheCreation1hTokens ≤ u.cachedCreationTokens ∧
      billedCacheCreation ctx modelName p u ≤ u.cachedCreationTokens

theorem le_billedCacheCreation (ctx : TextContext) (modelName : String) (p : PriceData) (u : Usage) :
    u.cachedCreationTokens ≤ billedCacheCreation ctx modelName p u := by
  unfold billedCacheCreation billedPrompt
  split
  · dsimp only
    split
    next hDerived => omega
    next => exact le_refl _
  · exact le_refl _

theorem chargedCacheCreation_eq (ctx : TextContext) (modelName : String) (p : PriceData)
    {u : Usage} (h : u.Nonneg) :
    chargedCacheCreation ctx modelName p u =
      cacheWriteTokensTotal (billedCacheCreation ctx modelName p u)
        u.claudeCacheCreation5mTokens u.claudeCacheCreation1hTokens := by
  have hBilled : 0 ≤ billedCacheCreation ctx modelName p u :=
    le_trans h.cachedCreationTokens (le_billedCacheCreation ctx modelName p u)
  rw [chargedCacheCreation, split_sum, cacheWriteTokensTotal_eq h.claudeCacheCreation5mTokens
    h.claudeCacheCreation1hTokens hBilled]

/-- Under the Claude semantic the parameters agree with ratio billing exactly when the
cache creation is reported in full. -/
theorem created_iff (ctx : TextContext) (modelName : String) (p : PriceData) (u : Usage)
    (usedVars : List String) (isClaude : Bool) :
    (buildTieredTokenParams u isClaude usedVars).cc +
        (buildTieredTokenParams u isClaude usedVars).cc1h = chargedCacheCreation ctx modelName p u ↔
      ReportedInFull ctx modelName p u := by
  have hLe := le_billedCacheCreation ctx modelName p u
  rw [buildTieredTokenParams_created, Int.cast_inj, chargedCacheCreation, split_sum, ReportedInFull]
  split
  · omega
  · omega

/-- The parameters that a request is settled with conserve its tokens exactly when the
request is not billed under the Claude semantic or its cache creation is reported in
full. -/
theorem tokens_conserved_iff (ctx : TextContext) (modelName : String) (p : PriceData) (u : Usage)
    (usedVars : List String) (h : u.Nonneg) :
    ConservesTokens ctx modelName p u usedVars
        (buildTieredTokenParams u (isClaudeUsageSemantic ctx u) usedVars) ↔
      (isClaudeUsageSemantic ctx u = true → ReportedInFull ctx modelName p u) := by
  constructor
  · intro hConserves hClaude
    exact (created_iff ctx modelName p u usedVars _).mp (hConserves.created hClaude)
  · intro hReported
    refine ⟨buildTieredTokenParams_nonneg h _ _, ?_, ?_, ?_⟩
    · intro hOpenAi hFits
      rw [hOpenAi] at hFits ⊢
      rw [buildTieredTokenParams_input, max_eq_left (by linarith)]
      ring
    · intro hOpenAi hFits
      rw [hOpenAi] at hFits ⊢
      rw [buildTieredTokenParams_output, max_eq_left (by linarith)]
      ring
    · intro hClaude
      exact (created_iff ctx modelName p u usedVars _).mpr (hReported hClaude)

def claudeContext : TextContext := ⟨unitSettings, true, false, 0, none, 0, none⟩

def totalOnlyUsage : Usage := ⟨100, 20, "anthropic", "", 0, 1000, 0, 0, 0, 0, 0, 0, 0⟩

def splitUsage : Usage :=
  { totalOnlyUsage with claudeCacheCreation5mTokens := 600, claudeCacheCreation1hTokens := 400 }

/-- A thousand tokens that ratio billing charges do not reach the expression. -/
theorem total_only_not_conserved :
    totalOnlyUsage.Nonneg ∧ isClaudeUsageSemantic claudeContext totalOnlyUsage = true ∧
      chargedCacheCreation claudeContext "claude" .zero totalOnlyUsage = 1000 ∧
      (buildTieredTokenParams totalOnlyUsage true ["p", "c", "cc"]).cc +
        (buildTieredTokenParams totalOnlyUsage true ["p", "c", "cc"]).cc1h = 0 ∧
      ¬ ConservesTokens claudeContext "claude" .zero totalOnlyUsage ["p", "c", "cc"]
        (buildTieredTokenParams totalOnlyUsage
          (isClaudeUsageSemantic claudeContext totalOnlyUsage) ["p", "c", "cc"]) := by
  have hCharged : chargedCacheCreation claudeContext "claude" .zero totalOnlyUsage = 1000 := by
    decide
  have hSeen : (buildTieredTokenParams totalOnlyUsage true ["p", "c", "cc"]).cc +
      (buildTieredTokenParams totalOnlyUsage true ["p", "c", "cc"]).cc1h = 0 := by
    simp [buildTieredTokenParams, totalOnlyUsage]
  refine ⟨by constructor <;> decide, by decide, hCharged, hSeen, ?_⟩
  intro hConserves
  have hCreated := hConserves.created (by decide)
  rw [show isClaudeUsageSemantic claudeContext totalOnlyUsage = true by decide, hSeen,
    hCharged] at hCreated
  norm_num at hCreated

theorem split_usage_conserved : splitUsage.Nonneg ∧
    ConservesTokens claudeContext "claude" .zero splitUsage ["p", "c", "cc"]
      (buildTieredTokenParams splitUsage
        (isClaudeUsageSemantic claudeContext splitUsage) ["p", "c", "cc"]) := by
  have hNonneg : splitUsage.Nonneg := by constructor <;> decide
  refine ⟨hNonneg, (tokens_conserved_iff _ _ _ _ _ hNonneg).mpr ?_⟩
  intro _
  unfold ReportedInFull
  decide

end Qapi.Pricing
