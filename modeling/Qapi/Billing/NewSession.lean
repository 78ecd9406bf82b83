import Qapi.Billing.Session

/-!
# Opening a session

`preConsume` charges the token and then the source, giving the token its quota
back when the source fails. `NewBillingSession` tries the sources in the order of
the user's preference; a second source is tried only when the first one reported
that there is not enough quota.
-/

namespace Qapi.Billing

open Qapi.Core Subscription BillingSession

structure TrySteps where
  read : Outcome
  token : Outcome
  funding : Outcome
  rollback : Outcome

/-- The error texts that the source uses for a subscription without room. -/
def isQuotaShortage (e : Err) : Bool :=
  contains e.text "no active subscription" || contains e.text "subscription quota insufficient"

def fundingError (e : Err) : APIError :=
  if isQuotaShortage e then subscriptionShort e else ⟨.updateDataError, e.text⟩

def rollbackToken (o : Outcome) (info : RelayInfo) (tokenConsumed : Int) (w : World) : World :=
  if tokenConsumed > 0 ∧ !info.isPlayground then
    (transact w (increaseTokenQuota o info.tokenId tokenConsumed w)).2
  else w

def effectiveQuota (env : BillingEnv) (s : BillingSession) (quota : Int) : Int :=
  if s.shouldTrust env then 0 else quota

/-- `preConsume` of a new session. -/
def preConsume (env : BillingEnv) (o : TrySteps) (quota : Int) (s : BillingSession) (w : World) :
    Except APIError BillingSession × World :=
  let effective := effectiveQuota env s quota
  let charged :=
    if effective > 0 then preConsumeTokenQuota env o.token s.relayInfo effective w
    else .ok ((), w)
  match charged with
  | .error e => (.error ⟨.preConsumeTokenQuotaFailed, e.text⟩, w)
  | .ok (_, w₁) =>
    let tokenConsumed := if effective > 0 then effective else s.tokenConsumed
    match s.funding.preConsume env o.funding effective w₁ with
    | .error e => (.error (fundingError e), rollbackToken o.rollback s.relayInfo tokenConsumed w₁)
    | .ok (f, w₂) =>
      (.ok (syncRelayInfo { s with
        funding := f
        trusted := s.shouldTrust env
        tokenConsumed := tokenConsumed
        preConsumedQuota := effective }), w₂)

def newSession (info : RelayInfo) (f : Funding) : BillingSession :=
  { relayInfo := info
    funding := f
    preConsumedQuota := 0
    tokenConsumed := 0
    extraReserved := 0
    trusted := false
    fundingSettled := false
    settled := false
    refunded := false }

def getUserQuota (env : BillingEnv) (o : Outcome) (userId : Int) (w : World) : Except Err Int :=
  match env.cachedUserQuota with
  | some quota => .ok quota
  | none => do
    stmt o .userQuota
    pure (w.users userId)

def tryWallet (env : BillingEnv) (o : TrySteps) (info : RelayInfo) (quota : Int) (w : World) :
    Except APIError BillingSession × World :=
  match getUserQuota env o.read info.userId w with
  | .error e => (.error ⟨.queryDataError, e.text⟩, w)
  | .ok userQuota =>
    if userQuota ≤ 0 then
      (.error ⟨.insufficientUserQuota, "用户额度不足, 剩余额度: " ++ env.formatQuota userQuota⟩, w)
    else if userQuota - quota < 0 then
      (.error ⟨.insufficientUserQuota, "预扣费额度失败, 用户剩余额度: " ++ env.formatQuota userQuota ++
        ", 需要预扣费额度: " ++ env.formatQuota quota⟩, w)
    else
      preConsume env o quota
        (newSession { info with userQuota := userQuota } (.wallet info.userId 0)) w

def subConsume (quota : Int) : Int := if quota ≤ 0 then 1 else quota

def newSubscriptionFunding (info : RelayInfo) (amount : Int) : SubscriptionFunding :=
  { requestId := info.requestId
    userId := info.userId
    amount := amount
    subscriptionId := 0
    preConsumed := 0
    amountTotal := 0
    amountUsedAfter := 0
    planId := 0
    planTitle := "" }

def trySubscription (env : BillingEnv) (o : TrySteps) (info : RelayInfo) (quota : Int)
    (w : World) : Except APIError BillingSession × World :=
  preConsume env o (subConsume quota)
    (newSession info (.subscription (newSubscriptionFunding info (subConsume quota)))) w

inductive Preference
  | subscriptionFirst
  | walletFirst
  | subscriptionOnly
  | walletOnly
deriving DecidableEq, Repr

def normalizeBillingPreference (pref : String) : Preference :=
  let p := trimSpace pref
  if p = "wallet_first" then .walletFirst
  else if p = "subscription_only" then .subscriptionOnly
  else if p = "wallet_only" then .walletOnly
  else .subscriptionFirst

def hasActiveUserSubscription (env : BillingEnv) (o : Outcome) (userId : Int) (w : World) :
    Except Err Bool := do
  failIf (userId ≤ 0) (.msg "invalid userId")
  stmt o .countSubs
  pure (w.subs.subs.rows.any (chargeable env.timestamp userId))

def userActiveSubscriptionsAllowWalletOverflow (env : BillingEnv) (o : Outcome) (userId : Int)
    (w : World) : Except Err Bool := do
  failIf (userId ≤ 0) (.msg "invalid userId")
  stmt o .countSubs
  pure (!w.subs.subs.rows.any fun s => chargeable env.timestamp userId s && !s.allowWalletOverflow)

/-- The outcomes of the database calls of `NewBillingSession`. -/
structure OpenSteps where
  wallet : TrySteps
  subscription : TrySteps
  hasActive : Outcome
  overflow : Outcome

/-- The fallback of `subscription_first` to the wallet. -/
def overflowToWallet (env : BillingEnv) (o : OpenSteps) (info : RelayInfo) (quota : Int)
    (apiErr : APIError) (w : World) : Except APIError BillingSession × World :=
  match userActiveSubscriptionsAllowWalletOverflow env o.overflow info.userId w with
  | .error e => (.error ⟨.queryDataError, e.text⟩, w)
  | .ok true => tryWallet env o.wallet info quota w
  | .ok false => (.error apiErr, w)

def newBillingSession (env : BillingEnv) (o : OpenSteps) (info : RelayInfo) (quota : Int)
    (w : World) : Except APIError BillingSession × World :=
  match normalizeBillingPreference info.billingPreference with
  | .subscriptionOnly => trySubscription env o.subscription info quota w
  | .walletOnly => tryWallet env o.wallet info quota w
  | .walletFirst =>
    match tryWallet env o.wallet info quota w with
    | (.error e, w') =>
      if e.code = .insufficientUserQuota then trySubscription env o.subscription info quota w'
      else (.error e, w')
    | r => r
  | .subscriptionFirst =>
    match hasActiveUserSubscription env o.hasActive info.userId w with
    | .error e => (.error ⟨.queryDataError, e.text⟩, w)
    | .ok false => tryWallet env o.wallet info quota w
    | .ok true =>
      match trySubscription env o.subscription info quota w with
      | (.error e, w') =>
        if e.code = .insufficientUserQuota then overflowToWallet env o info quota e w'
        else (.error e, w')
      | r => r

/-! ## A sample request -/

def sampleInfo (pref : String) : RelayInfo :=
  { requestId := "request-1"
    userId := 1
    tokenId := 7
    tokenUnlimited := false
    isPlayground := false
    forcePreConsume := false
    billingPreference := pref
    userQuota := 0
    finalPreConsumedQuota := 0
    billingSource := .unset
    subscriptionId := 0
    subscriptionPreConsumed := 0
    subscriptionPostDelta := 0
    subscriptionAmountTotal := 0
    subscriptionAmountUsedAfterPreConsume := 0
    subscriptionPlanId := 0
    subscriptionPlanTitle := "" }

def sampleEnv : BillingEnv :=
  { store := utcEnv 100001
    timestamp := 100001
    trustQuota := 0
    contextTokenQuota := 0
    cachedUserQuota := none
    cachedTokenQuota := none
    planInfo := fun _ => none
    formatQuota := toString }

end Qapi.Billing
