import Qapi.Billing.ExactlyOnce
import Qapi.Pricing.Text

/-!
# Realtime sessions

`relay/channel/openai/relay_realtime.go` and the websocket part of
`service/quota.go`. While a realtime session runs, every response that is done is
charged by `PreWssConsumeQuota`, past the billing session; when it ends, the usage
of all responses is priced once more and settled through the billing session, which
only knows what was pre-consumed when the session was opened.

What the source is out of in the end is therefore the settled quota and, on top of
it, everything that was charged on the way.
-/

namespace Qapi.Billing

open Qapi.Core Subscription BillingSession Pricing

/-! ## Prices -/

structure RealtimeUsage where
  totalTokens : Int
  inputTokens : Int
  outputTokens : Int
  inputCachedTokens : Int
  inputTextTokens : Int
  inputAudioTokens : Int
  outputTextTokens : Int
  outputAudioTokens : Int
deriving DecidableEq, Repr

def RealtimeUsage.zero : RealtimeUsage := ⟨0, 0, 0, 0, 0, 0, 0, 0⟩

def RealtimeUsage.add (u v : RealtimeUsage) : RealtimeUsage :=
  { totalTokens := u.totalTokens + v.totalTokens
    inputTokens := u.inputTokens + v.inputTokens
    outputTokens := u.outputTokens + v.outputTokens
    inputCachedTokens := u.inputCachedTokens + v.inputCachedTokens
    inputTextTokens := u.inputTextTokens + v.inputTextTokens
    inputAudioTokens := u.inputAudioTokens + v.inputAudioTokens
    outputTextTokens := u.outputTextTokens + v.outputTextTokens
    outputAudioTokens := u.outputAudioTokens + v.outputAudioTokens }

def RealtimeUsage.input (text audio : Int) : RealtimeUsage :=
  { RealtimeUsage.zero with
    totalTokens := text + audio
    inputTokens := text + audio
    inputTextTokens := text
    inputAudioTokens := audio }

def RealtimeUsage.output (text audio : Int) : RealtimeUsage :=
  { RealtimeUsage.zero with
    totalTokens := text + audio
    outputTokens := text + audio
    outputTextTokens := text
    outputAudioTokens := audio }

structure QuotaInfo where
  usage : RealtimeUsage
  modelName : String
  usePrice : Bool
  modelPrice : ℚ
  modelRatio : ℚ
  groupRatio : ℚ

def audioQuotaByRatio (cfg : Settings) (q : QuotaInfo) : ℚ :=
  let ratio := q.groupRatio * q.modelRatio
  let audioRatio := cfg.audioRatio q.modelName
  let quota := (q.usage.inputTextTokens + q.usage.outputTextTokens * cfg.completionRatio q.modelName +
    q.usage.inputAudioTokens * audioRatio +
    q.usage.outputAudioTokens * audioRatio * cfg.audioCompletionRatio q.modelName) * ratio
  if ratio ≠ 0 ∧ quota ≤ 0 then 1 else quota

def calculateAudioQuota (cfg : Settings) (q : QuotaInfo) : Int :=
  quotaFromDecimal (if q.usePrice then q.modelPrice * cfg.quotaPerUnit * q.groupRatio
    else audioQuotaByRatio cfg q)

theorem audioQuotaByRatio_nonneg (cfg : Settings) (q : QuotaInfo) :
    0 ≤ audioQuotaByRatio cfg q := by
  unfold audioQuotaByRatio
  dsimp only
  split
  · norm_num
  · rename_i hNot
    by_cases hRatio : q.groupRatio * q.modelRatio = 0
    · simp [hRatio]
    · exact (lt_of_not_ge fun hLe => hNot ⟨hRatio, hLe⟩).le

theorem calculateAudioQuota_nonneg (cfg : Settings) {q : QuotaInfo} (h : q.usePrice = false) :
    0 ≤ calculateAudioQuota cfg q := by
  unfold calculateAudioQuota
  rw [h]
  exact quotaFromDecimal_nonneg (audioQuotaByRatio_nonneg cfg q)

/-! ## Charging past the session -/

/-- The wallet's side of `PostConsumeQuota`. -/
def chargeUser (o : Outcome) (userId quota : Int) (w : World) : Except Err (Unit × World) :=
  if quota > 0 then decreaseUserQuota o userId quota w else increaseUserQuota o userId (-quota) w

/-- The source's side of `PostConsumeQuota`. -/
def chargeSource (o : Outcome) (info : RelayInfo) (quota : Int) (w : World) :
    Except Err (RelayInfo × World) :=
  if info.billingSource = .subscription then
    if info.subscriptionId = 0 then .error (.msg "subscription id is missing")
    else if quota = 0 then .ok (info, w)
    else do
      let (_, w') ← w.onSubs (postConsumeUserSubscriptionDelta o info.subscriptionId quota w.subs)
      pure ({ info with subscriptionPostDelta := info.subscriptionPostDelta + quota }, w')
  else do
    let (_, w') ← chargeUser o info.userId quota w
    pure (info, w')

/-- `PostConsumeQuota`, without the notice to the user. -/
def postConsumeQuota (o : SettleSteps) (info : RelayInfo) (quota : Int) (w : World) :
    Except Err Unit × RelayInfo × World :=
  match chargeSource o.funding info quota w with
  | .error e => (.error e, info, w)
  | .ok (info', w₁) =>
    let r := adjustToken o.token info quota w₁
    (r.1, info', r.2)

inductive Payer
  | free (info : RelayInfo)
  | session (s : BillingSession)

def Payer.info : Payer → RelayInfo
  | free info => info
  | session s => s.relayInfo

def Payer.setInfo (info : RelayInfo) : Payer → Payer
  | free _ => free info
  | session s => session { s with relayInfo := info }

/-- What a realtime request brings along; `usePrice` is that of the relay info itself. -/
structure RealtimeRequest where
  engine : ExprEngine
  price : PriceInfo
  autoGroup : Option String
  upstreamModelName : String
  usePrice : Bool

structure ChargeSteps where
  cfg : Settings
  env : BillingEnv
  tokenUnlimited : Bool
  read : Outcome
  post : SettleSteps

def wssQuota (req : RealtimeRequest) (c : ChargeSteps) (usage : RealtimeUsage) : Int :=
  let info := (handleGroupRatio c.cfg req.autoGroup req.price).2
  calculateAudioQuota c.cfg
    { usage := usage
      modelName := info.originModelName
      usePrice := req.usePrice
      modelPrice := 0
      modelRatio := (c.cfg.modelRatio info.originModelName).1
      groupRatio := (handleGroupRatio c.cfg req.autoGroup req.price).1.groupRatio }

/-- The checks of `PreWssConsumeQuota`, with the quota that passes them. -/
def preWssCheck (req : RealtimeRequest) (c : ChargeSteps) (usage : RealtimeUsage)
    (info : RelayInfo) (w : World) : Except Err Int := do
  let userQuota ← getUserQuota c.env c.read info.userId w
  stmt c.read .token
  let remain := c.env.cachedTokenQuota.getD (w.tokens info.tokenId).remainQuota
  let quota := wssQuota req c usage
  failIf (userQuota < quota) (.msg ("user quota is not enough, user quota: " ++
    c.env.formatQuota userQuota ++ ", need quota: " ++ c.env.formatQuota quota))
  failIf (!c.tokenUnlimited ∧ remain < quota) (.msg ("token quota is not enough, token remain quota: " ++
    c.env.formatQuota remain ++ ", need quota: " ++ c.env.formatQuota quota))
  pure quota

def preWssConsumeQuota (req : RealtimeRequest) (c : ChargeSteps) (usage : RealtimeUsage)
    (p : Payer) (w : World) : Except Err Unit × Payer × World :=
  if req.usePrice then (.ok (), p, w)
  else
    match preWssCheck req c usage p.info w with
    | .error e => (.error e, p, w)
    | .ok quota =>
      let r := postConsumeQuota c.post p.info quota w
      (r.1, p.setInfo r.2.1, r.2.2)

/-- What `PreWssConsumeQuota` takes from the source. -/
def wssCharge (req : RealtimeRequest) (c : ChargeSteps) (usage : RealtimeUsage) (p : Payer)
    (w : World) : Int :=
  if req.usePrice then 0
  else
    match preWssCheck req c usage p.info w with
    | .error _ => 0
    | .ok quota => if isOk (chargeSource c.post.funding p.info quota w) then quota else 0

/-! ## The handler -/

/-- The state of `OpenaiRealtimeHandler`; the reader of the upstream stops at its first error. -/
structure Wss where
  payer : Payer
  world : World
  usage : RealtimeUsage
  localUsage : RealtimeUsage
  sumUsage : RealtimeUsage
  upstreamOpen : Bool

def Wss.start (p : Payer) (w : World) : Wss := ⟨p, w, .zero, .zero, .zero, true⟩

/-- What happens in the handler: a message of the client, a response that is done, with
the usage it reports or the tokens that are counted for it, another message of the
upstream, and at the end the charges for what was left. -/
inductive WssAction
  | client (text audio : Int)
  | responseDone (usage : RealtimeUsage) (c : ChargeSteps)
  | responseCounted (text audio : Int) (c : ChargeSteps)
  | upstream (text audio : Int)
  | flushUsage (c : ChargeSteps)
  | flushLocal (c : ChargeSteps)

def preConsumeUsage (req : RealtimeRequest) (c : ChargeSteps) (usage : RealtimeUsage) (st : Wss) :
    Except Err Unit × Wss :=
  let r := preWssConsumeQuota req c usage st.payer st.world
  (r.1, { st with
    payer := r.2.1
    world := r.2.2
    sumUsage := st.sumUsage.add usage })

def wssStep (req : RealtimeRequest) (st : Wss) : WssAction → Wss
  | .client text audio => { st with localUsage := st.localUsage.add (.input text audio) }
  | .responseDone usage c =>
    if st.upstreamOpen then
      let usage := st.usage.add usage
      match preConsumeUsage req c usage { st with usage := usage } with
      | (.ok (), st) => { st with usage := .zero, localUsage := .zero }
      | (.error _, st) => { st with upstreamOpen := false }
    else st
  | .responseCounted text audio c =>
    if st.upstreamOpen then
      let usage := st.localUsage.add (.input text audio)
      match preConsumeUsage req c usage { st with localUsage := usage } with
      | (.ok (), st) => { st with localUsage := .zero }
      | (.error _, st) => { st with upstreamOpen := false }
    else st
  | .upstream text audio =>
    if st.upstreamOpen then { st with localUsage := st.localUsage.add (.output text audio) } else st
  | .flushUsage c =>
    if st.usage.totalTokens ≠ 0 then (preConsumeUsage req c st.usage st).2 else st
  | .flushLocal c =>
    if st.localUsage.totalTokens ≠ 0 then (preConsumeUsage req c st.localUsage st).2 else st

def wssCall (st : Wss) : WssAction → Option (RealtimeUsage × ChargeSteps)
  | .client _ _ => none
  | .responseDone usage c => if st.upstreamOpen then some (st.usage.add usage, c) else none
  | .responseCounted text audio c =>
    if st.upstreamOpen then some (st.localUsage.add (.input text audio), c) else none
  | .upstream _ _ => none
  | .flushUsage c => if st.usage.totalTokens ≠ 0 then some (st.usage, c) else none
  | .flushLocal c => if st.localUsage.totalTokens ≠ 0 then some (st.localUsage, c) else none

def wssStepCharge (req : RealtimeRequest) (st : Wss) (a : WssAction) : Int :=
  match wssCall st a with
  | none => 0
  | some (usage, c) => wssCharge req c usage st.payer st.world

def wssActions (events : List WssAction) (c₁ c₂ : ChargeSteps) : List WssAction :=
  events ++ [.flushUsage c₁, .flushLocal c₂]

/-! ## The settlement -/

/-- `SettleBilling`, without the notice to the user. -/
def settleBilling (o : SettleSteps) (actualQuota : Int) (p : Payer) (w : World) : World :=
  match p with
  | .session s => (settle o actualQuota ⟨s, w⟩).2.world
  | .free info =>
    let quotaDelta := actualQuota - info.finalPreConsumedQuota
    if quotaDelta ≠ 0 then (postConsumeQuota o info quotaDelta w).2.2 else w

def settlementAccepted (o : SettleSteps) (actualQuota : Int) (p : Payer) (w : World) : Bool :=
  match p with
  | .session s => settleTakesEffect o actualQuota ⟨s, w⟩
  | .free info =>
    actualQuota = info.finalPreConsumedQuota ||
      isOk (chargeSource o.funding info (actualQuota - info.finalPreConsumedQuota) w)

/-- The quota that `PostWssConsumeQuota` settles and writes to the log. -/
def postWssQuota (req : RealtimeRequest) (cfg : Settings) (usage : RealtimeUsage) (info : RelayInfo) :
    Int :=
  let quota := calculateAudioQuota cfg
    { usage := usage
      modelName := req.upstreamModelName
      usePrice := req.price.priceData.usePrice
      modelPrice := req.price.priceData.modelPrice
      modelRatio := req.price.priceData.modelRatio
      groupRatio := req.price.priceData.groupRatioInfo.groupRatio }
  let tiered := tryTieredSettle req.engine
    { req.price with finalPreConsumedQuota := info.finalPreConsumedQuota }
    ⟨usage.inputTokens, usage.outputTokens, usage.inputTokens, 0, 0, 0, 0, 0, 0, 0⟩
  if usage.totalTokens = 0 then 0
  else match tiered with
    | some (tieredQuota, _) => tieredQuota
    | none => quota

structure RealtimeRequest.ByRatio (req : RealtimeRequest) : Prop where
  relayInfo : req.usePrice = false
  priceData : req.price.priceData.usePrice = false
  noSnapshot : req.price.tieredBillingSnapshot = none

theorem postWssQuota_nonneg {req : RealtimeRequest} (hReq : req.ByRatio) (cfg : Settings)
    (usage : RealtimeUsage) (info : RelayInfo) : 0 ≤ postWssQuota req cfg usage info := by
  unfold postWssQuota
  simp only [tryTieredSettle, hReq.noSnapshot]
  split
  · exact le_refl 0
  · exact calculateAudioQuota_nonneg cfg hReq.priceData

end Qapi.Billing
