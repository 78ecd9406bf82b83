import Qapi.Pricing.Basic

/-!
# The attempts of a request

`service/channel_select.go` and the retry loop of `controller/relay.go`: a request is
sent to one channel after another until it is served. A token of the group `auto`
moves through the user's auto groups; which of them an attempt uses is kept in the
context, and the group ratio in the price data is resolved again on every retry.
-/

namespace Qapi.Relay

open Qapi.Core Pricing

variable {Channel : Type}

/-- The keys of the request context that the selection reads and writes. -/
structure Context where
  autoGroup : Option String
  autoGroupIndex : Option Nat
  tokenCrossGroupRetry : Bool
deriving DecidableEq, Repr

/-- `RetryParam`; the model and the path are those of the request throughout. -/
structure RetryParam where
  tokenGroup : String
  retry : Int
  resetNextTry : Bool
deriving DecidableEq, Repr

def RetryParam.increaseRetry (p : RetryParam) : RetryParam :=
  if p.resetNextTry then { p with resetNextTry := false } else { p with retry := p.retry + 1 }

/-- What the selection finds at one attempt: the auto groups of the user, and
the channel that `GetRandomSatisfiedChannel` returns for a group and a retry. -/
structure SelectEnv (Channel : Type) where
  autoGroupsEnabled : Bool
  autoGroups : List String
  retryTimes : Int
  getRandomSatisfiedChannel : String → Int → Except Err (Option Channel)

/-- The search through the auto groups from the index `i` on. -/
def selectAuto (env : SelectEnv Channel) (startGroupIndex : Nat) :
    List String → Nat → Context → RetryParam → Option Channel × String × Context × RetryParam
  | [], _, ctx, p => (none, p.tokenGroup, ctx, p)
  | autoGroup :: rest, i, ctx, p =>
    let priorityRetry := if i > startGroupIndex then 0 else p.retry
    match env.getRandomSatisfiedChannel autoGroup priorityRetry with
    | .ok (some channel) =>
      let ctx := { ctx with autoGroup := some autoGroup }
      if ctx.tokenCrossGroupRetry ∧ priorityRetry ≥ env.retryTimes then
        (some channel, autoGroup, { ctx with autoGroupIndex := some (i + 1) },
          { p with retry := 0, resetNextTry := true })
      else (some channel, autoGroup, { ctx with autoGroupIndex := some i }, p)
    | _ =>
      selectAuto env startGroupIndex rest (i + 1) { ctx with autoGroupIndex := some (i + 1) }
        { p with retry := 0 }

def cacheGetRandomSatisfiedChannel (env : SelectEnv Channel) (ctx : Context) (p : RetryParam) :
    Except Err (Option Channel) × String × Context × RetryParam :=
  if p.tokenGroup = "auto" then
    if !env.autoGroupsEnabled then
      (.error (.msg "auto groups is not enabled"), p.tokenGroup, ctx, p)
    else
      let start := ctx.autoGroupIndex.getD 0
      let (channel, group, ctx, p) := selectAuto env start (env.autoGroups.drop start) start ctx p
      (.ok channel, group, ctx, p)
  else (env.getRandomSatisfiedChannel p.tokenGroup p.retry, p.tokenGroup, ctx, p)

structure LoopState where
  info : PriceInfo
  ctx : Context
  param : RetryParam
deriving DecidableEq, Repr

/-- What happens at one attempt: the settings in force, what the selection finds, the
errors of the steps around the handler, and the error of the handler with the
decision whether to retry. -/
structure Attempt (Channel : Type) where
  cfg : Settings
  select : SelectEnv Channel
  setup : Option Err
  body : Option Err
  handler : Option Err
  shouldRetry : Bool

/-- `getChannel`; the first attempt uses the channel that the distributor chose. -/
def getChannel (first : Channel) (a : Attempt Channel) (st : LoopState) :
    Except Err Channel × LoopState :=
  if !st.info.hasChannelMeta then (.ok first, st)
  else
    let (found, group, ctx, param) := cacheGetRandomSatisfiedChannel a.select st.ctx st.param
    let (g, info) := handleGroupRatio a.cfg ctx.autoGroup st.info
    let st : LoopState :=
      { info := { info with priceData := { info.priceData with groupRatioInfo := g } }
        ctx := ctx
        param := param }
    match found with
    | .error e => (.error (.msg ("获取分组 " ++ group ++ " 下模型 " ++ info.originModelName ++
        " 的可用渠道失败（retry）: " ++ e.text)), st)
    | .ok none => (.error (.msg ("分组 " ++ group ++ " 下模型 " ++ info.originModelName ++
        " 的可用渠道不存在（retry）")), st)
    | .ok (some channel) =>
      match a.setup with
      | some e => (.error e, st)
      | none => (.ok channel, st)

/-- The retry loop: the index of the attempt that served the request and the state it
was served in. -/
def relayLoop (first : Channel) : List (Attempt Channel) → LoopState → Option (Nat × LoopState)
  | [], _ => none
  | a :: rest, st =>
    if st.param.retry > a.select.retryTimes then none
    else
      match getChannel first a st with
      | (.error _, _) => none
      | (.ok _, st) =>
        match a.body with
        | some _ => none
        | none =>
          -- the handler starts with `InitChannelMeta`
          let st := { st with info := { st.info with hasChannelMeta := true } }
          match a.handler with
          | none => some (0, st)
          | some _ =>
            if !a.shouldRetry then none
            else (relayLoop first rest { st with param := st.param.increaseRetry }).map
              fun (k, st) => (k + 1, st)

/-! ## What the attempts keep -/

/-- The price data hold the ratio of the group in use, under the settings `cfg`. -/
def Resolved (cfg : Settings) (info : PriceInfo) : Prop :=
  info.priceData.groupRatioInfo = groupRatioOf cfg info.userGroup info.usingGroup

/-- What no attempt changes. -/
structure SameRequest (info info' : PriceInfo) : Prop where
  userGroup : info'.userGroup = info.userGroup
  model : info'.originModelName = info.originModelName
  finalPreConsumedQuota : info'.finalPreConsumedQuota = info.finalPreConsumedQuota
  snapshot : info'.tieredBillingSnapshot = info.tieredBillingSnapshot
  input : info'.billingRequestInput = info.billingRequestInput

theorem SameRequest.trans {i₁ i₂ i₃ : PriceInfo} (h : SameRequest i₁ i₂) (h' : SameRequest i₂ i₃) :
    SameRequest i₁ i₃ where
  userGroup := h'.userGroup.trans h.userGroup
  model := h'.model.trans h.model
  finalPreConsumedQuota := h'.finalPreConsumedQuota.trans h.finalPreConsumedQuota
  snapshot := h'.snapshot.trans h.snapshot
  input := h'.input.trans h.input

theorem selectAuto_tokenGroup (env : SelectEnv Channel) (start : Nat) (groups : List String)
    (i : Nat) (ctx : Context) (p : RetryParam) :
    (selectAuto env start groups i ctx p).2.2.2.tokenGroup = p.tokenGroup := by
  induction groups generalizing i ctx p with
  | nil => rfl
  | cons autoGroup rest ih =>
    unfold selectAuto
    generalize (if i > start then 0 else p.retry) = priorityRetry
    dsimp only
    split
    · split <;> rfl
    · exact ih _ _ _

theorem selectAuto_found {env : SelectEnv Channel} {start : Nat} {groups : List String} {i : Nat}
    {ctx : Context} {p : RetryParam} {channel : Channel}
    (h : (selectAuto env start groups i ctx p).1 = some channel) :
    ∃ autoGroup retry, (selectAuto env start groups i ctx p).2.2.1.autoGroup = some autoGroup ∧
      env.getRandomSatisfiedChannel autoGroup retry = .ok (some channel) := by
  induction groups generalizing i ctx p with
  | nil => cases h
  | cons autoGroup rest ih =>
    unfold selectAuto at h ⊢
    generalize (if i > start then 0 else p.retry) = priorityRetry at h ⊢
    dsimp only at h ⊢
    split at h
    · rename_i found hFound
      refine ⟨autoGroup, priorityRetry, ?_, ?_⟩
      · split <;> rfl
      · split at h <;> cases h <;> exact hFound
    · exact ih h

theorem cacheGet_tokenGroup (env : SelectEnv Channel) (ctx : Context) (p : RetryParam) :
    (cacheGetRandomSatisfiedChannel env ctx p).2.2.2.tokenGroup = p.tokenGroup := by
  unfold cacheGetRandomSatisfiedChannel
  split
  · split
    · rfl
    · exact selectAuto_tokenGroup _ _ _ _ _ _
  · rfl

theorem cacheGet_found {env : SelectEnv Channel} {ctx : Context} {p : RetryParam}
    {channel : Channel} (hAuto : p.tokenGroup = "auto")
    (h : (cacheGetRandomSatisfiedChannel env ctx p).1 = .ok (some channel)) :
    ∃ autoGroup retry, (cacheGetRandomSatisfiedChannel env ctx p).2.2.1.autoGroup = some autoGroup ∧
      env.getRandomSatisfiedChannel autoGroup retry = .ok (some channel) := by
  unfold cacheGetRandomSatisfiedChannel at h ⊢
  rw [if_pos hAuto] at h ⊢
  split at h
  · cases h
  · rename_i hEnabled
    rw [if_neg hEnabled]
    exact selectAuto_found (Except.ok.inj h)

/-- The price data hold the ratio of the group in use, under the settings of the
attempt; where the token's group is `auto`, its channel is one of that group. -/
structure Refreshed (a : Attempt Channel) (tokenGroup : String) (info : PriceInfo) : Prop where
  resolved : Resolved a.cfg info
  group : tokenGroup = "auto" → ∃ retry channel,
    a.select.getRandomSatisfiedChannel info.usingGroup retry = .ok (some channel)

/-- A channel that is found leaves the price data as they were at the first attempt,
and refreshed at every other one. -/
theorem getChannel_ok {first channel : Channel} {a : Attempt Channel} {st st' : LoopState}
    (h : getChannel first a st = (.ok channel, st')) :
    SameRequest st.info st'.info ∧ st'.param.tokenGroup = st.param.tokenGroup ∧
      ((st.info.hasChannelMeta = false ∧ st' = st) ∨
        (st.info.hasChannelMeta = true ∧ Refreshed a st.param.tokenGroup st'.info)) := by
  unfold getChannel at h
  cases hMeta : st.info.hasChannelMeta with
  | false =>
    simp only [hMeta, Bool.not_false, if_true] at h
    cases h
    exact ⟨⟨rfl, rfl, rfl, rfl, rfl⟩, rfl, Or.inl ⟨rfl, rfl⟩⟩
  | true =>
    simp only [hMeta, Bool.not_true, Bool.false_eq_true, if_false] at h
    split at h
    · cases h
    · cases h
    rename_i found hFound
    split at h
    · cases h
    cases h
    refine ⟨⟨rfl, rfl, rfl, rfl, rfl⟩, cacheGet_tokenGroup _ _ _, Or.inr ⟨rfl, rfl, ?_⟩⟩
    intro hAuto
    obtain ⟨autoGroup, retry, hGroup, hChannel⟩ := cacheGet_found hAuto hFound
    refine ⟨retry, channel, ?_⟩
    simpa [handleGroupRatio, resolveGroup, hGroup] using hChannel

/-- The loop serves a request with the ratio of the group of the attempt that served it. -/
theorem relayLoop_served {first : Channel} {l : List (Attempt Channel)} {st st' : LoopState}
    {k : Nat} (h : relayLoop first l st = some (k, st')) :
    SameRequest st.info st'.info ∧
      ((st.info.hasChannelMeta = false ∧ k = 0 ∧
          st'.info = { st.info with hasChannelMeta := true }) ∨
        ((st.info.hasChannelMeta = true ∨ 0 < k) ∧
          ∃ a, l[k]? = some a ∧ Refreshed a st.param.tokenGroup st'.info)) := by
  induction l generalizing st k with
  | nil => cases h
  | cons a rest ih =>
    unfold relayLoop at h
    split at h
    · cases h
    rcases hGet : getChannel first a st with ⟨e | channel, st₁⟩
    · simp only [hGet] at h
      cases h
    simp only [hGet] at h
    obtain ⟨hSame, hToken, hCase⟩ := getChannel_ok hGet
    have hMark : SameRequest st₁.info { st₁.info with hasChannelMeta := true } :=
      ⟨rfl, rfl, rfl, rfl, rfl⟩
    split at h
    · cases h
    split at h
    · cases h
      refine ⟨hSame.trans hMark, ?_⟩
      rcases hCase with ⟨hMeta, rfl⟩ | ⟨hMeta, hRefreshed⟩
      · exact Or.inl ⟨hMeta, rfl, rfl⟩
      · exact Or.inr ⟨Or.inl hMeta, a, rfl, hRefreshed.resolved, hRefreshed.group⟩
    · split at h
      · cases h
      obtain ⟨⟨j, st₂⟩, hRest, hEq⟩ := Option.map_eq_some_iff.mp h
      cases hEq
      obtain ⟨hSame₂, hCase₂⟩ := ih hRest
      refine ⟨(hSame.trans hMark).trans hSame₂, ?_⟩
      rcases hCase₂ with ⟨hMeta, -⟩ | ⟨-, b, hb, hRefreshed⟩
      · simp at hMeta
      · have hToken₂ : st₁.param.increaseRetry.tokenGroup = st.param.tokenGroup := by
          rw [← hToken]
          unfold RetryParam.increaseRetry
          split <;> rfl
        exact Or.inr ⟨Or.inr j.succ_pos, b, by simpa using hb, hToken₂ ▸ hRefreshed⟩

end Qapi.Relay
