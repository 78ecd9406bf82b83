import Qapi.Billing.Quota

/-!
# Billing sessions

`service/funding_source.go` and `service/billing_session.go`: the two sources a
request can be charged to, and the session that charges a request before it is
relayed, may reserve more while it runs, and in the end settles or refunds it.

The functions take the outcome of each database call they make. The refund of a
session runs in a goroutine of its own; since nothing it reads is changed once
the session is marked refunded, it is modelled as part of the call.
-/

namespace Qapi.Billing

open Qapi.Core Subscription

/-! ## Funding sources -/

/-- `SubscriptionFunding`; the model name it carries is not used. -/
structure SubscriptionFunding where
  requestId : String
  userId : Int
  amount : Int
  subscriptionId : Int
  preConsumed : Int
  amountTotal : Int
  amountUsedAfter : Int
  planId : Int
  planTitle : String
deriving DecidableEq, Repr

/-- A `WalletFunding` or a `SubscriptionFunding`. -/
inductive Funding
  | wallet (userId consumed : Int)
  | subscription (f : SubscriptionFunding)
deriving DecidableEq, Repr

structure RefundSteps where
  wallet : Outcome
  attempts : Fin 3 → RefundOutcome
  extra : Outcome
  token : Outcome

namespace Funding

def source : Funding → BillingSource
  | wallet _ _ => .wallet
  | subscription _ => .subscription

/-- `PreConsume`; a subscription ignores the argument and uses its own amount. -/
def preConsume (env : BillingEnv) (o : Outcome) (amount : Int) (w : World) :
    Funding → Except Err (Funding × World)
  | wallet userId consumed =>
    if amount ≤ 0 then .ok (wallet userId consumed, w)
    else do
      let (_, w') ← decreaseUserQuota o userId amount w
      pure (wallet userId amount, w')
  | subscription f => do
    let (r, w') ← w.onSubs
      (preConsumeUserSubscription env.store o f.requestId f.userId f.amount w.subs)
    let plan := (env.planInfo r.userSubscriptionId).getD (f.planId, f.planTitle)
    pure (subscription
      { f with
        subscriptionId := r.userSubscriptionId
        preConsumed := r.preConsumed
        amountTotal := r.amountTotal
        amountUsedAfter := r.amountUsedAfter
        planId := plan.1
        planTitle := plan.2 }, w')

def settle (o : Outcome) (delta : Int) (w : World) : Funding → Except Err (Unit × World)
  | wallet userId _ =>
    if delta = 0 then .ok ((), w)
    else if delta > 0 then decreaseUserQuota o userId delta w
    else increaseUserQuota o userId (-delta) w
  | subscription f =>
    if delta = 0 then .ok ((), w)
    else w.onSubs (postConsumeUserSubscriptionDelta o f.subscriptionId delta w.subs)

def refund (o : RefundSteps) (w : World) : Funding → Except Err Unit × World
  | wallet userId consumed =>
    if consumed ≤ 0 then (.ok (), w)
    else transact w (increaseUserQuota o.wallet userId consumed w)
  | subscription f =>
    if f.preConsumed ≤ 0 then (.ok (), w)
    else
      let r := refundWithRetry o.attempts f.requestId w.subs
      (r.1, { w with subs := r.2 })

end Funding

/-! ## Sessions -/

inductive ErrorCode
  | queryDataError
  | updateDataError
  | insufficientUserQuota
  | preConsumeTokenQuotaFailed
deriving DecidableEq, Repr

/-- `types.NewAPIError`. -/
structure APIError where
  code : ErrorCode
  text : String
deriving DecidableEq, Repr

structure BillingSession where
  relayInfo : RelayInfo
  funding : Funding
  preConsumedQuota : Int
  tokenConsumed : Int
  extraReserved : Int
  trusted : Bool
  fundingSettled : Bool
  settled : Bool
  refunded : Bool
deriving DecidableEq, Repr

structure State where
  session : BillingSession
  world : World

namespace BillingSession

def syncRelayInfo (s : BillingSession) : BillingSession :=
  let info := { s.relayInfo with
    finalPreConsumedQuota := s.preConsumedQuota
    billingSource := s.funding.source }
  match s.funding with
  | .subscription f =>
    { s with
      relayInfo := { info with
        subscriptionId := f.subscriptionId
        subscriptionPreConsumed := f.preConsumed + s.extraReserved
        subscriptionPostDelta := 0
        subscriptionAmountTotal := f.amountTotal
        subscriptionAmountUsedAfterPreConsume := f.amountUsedAfter + s.extraReserved
        subscriptionPlanId := f.planId
        subscriptionPlanTitle := f.planTitle } }
  | .wallet _ _ =>
    { s with relayInfo := { info with subscriptionId := 0, subscriptionPreConsumed := 0 } }

section

variable (s : BillingSession)

@[simp] theorem syncRelayInfo_funding : s.syncRelayInfo.funding = s.funding := by
  unfold syncRelayInfo
  split <;> rfl

@[simp] theorem syncRelayInfo_preConsumedQuota :
    s.syncRelayInfo.preConsumedQuota = s.preConsumedQuota := by
  unfold syncRelayInfo
  split <;> rfl

@[simp] theorem syncRelayInfo_tokenConsumed : s.syncRelayInfo.tokenConsumed = s.tokenConsumed := by
  unfold syncRelayInfo
  split <;> rfl

@[simp] theorem syncRelayInfo_extraReserved : s.syncRelayInfo.extraReserved = s.extraReserved := by
  unfold syncRelayInfo
  split <;> rfl

@[simp] theorem syncRelayInfo_trusted : s.syncRelayInfo.trusted = s.trusted := by
  unfold syncRelayInfo
  split <;> rfl

@[simp] theorem syncRelayInfo_fundingSettled :
    s.syncRelayInfo.fundingSettled = s.fundingSettled := by
  unfold syncRelayInfo
  split <;> rfl

@[simp] theorem syncRelayInfo_settled : s.syncRelayInfo.settled = s.settled := by
  unfold syncRelayInfo
  split <;> rfl

@[simp] theorem syncRelayInfo_refunded : s.syncRelayInfo.refunded = s.refunded := by
  unfold syncRelayInfo
  split <;> rfl

@[simp] theorem syncRelayInfo_tokenId :
    s.syncRelayInfo.relayInfo.tokenId = s.relayInfo.tokenId := by
  unfold syncRelayInfo
  split <;> rfl

@[simp] theorem syncRelayInfo_isPlayground :
    s.syncRelayInfo.relayInfo.isPlayground = s.relayInfo.isPlayground := by
  unfold syncRelayInfo
  split <;> rfl

end

def shouldTrust (env : BillingEnv) (s : BillingSession) : Bool :=
  if s.relayInfo.forcePreConsume then false
  else if env.trustQuota ≤ 0 then false
  else if !(s.relayInfo.tokenUnlimited || env.contextTokenQuota > env.trustQuota) then false
  else match s.funding with
    | .wallet _ _ => s.relayInfo.userQuota > env.trustQuota
    | .subscription _ => false

/-- `needsRefundLocked`. -/
def needsRefund (s : BillingSession) : Bool :=
  if s.settled || s.refunded || s.fundingSettled then false
  else if s.tokenConsumed > 0 then true
  else match s.funding with
    | .subscription f => f.preConsumed > 0
    | .wallet _ _ => false

structure SettleSteps where
  funding : Outcome
  token : Outcome

def adjustToken (o : Outcome) (info : RelayInfo) (delta : Int) (w : World) :
    Except Err Unit × World :=
  if info.isPlayground then (.ok (), w)
  else if delta > 0 then transact w (decreaseTokenQuota o info.tokenId delta w)
  else transact w (increaseTokenQuota o info.tokenId (-delta) w)

def settle (o : SettleSteps) (actualQuota : Int) (st : State) : Except Err Unit × State :=
  let s := st.session
  let delta := actualQuota - s.preConsumedQuota
  if s.settled then (.ok (), st)
  else if delta = 0 then (.ok (), ⟨{ s with settled := true }, st.world⟩)
  else
    let committed :=
      if s.fundingSettled then .ok ((), st.world) else s.funding.settle o.funding delta st.world
    match committed with
    | .error e => (.error e, st)
    | .ok (_, w) =>
      -- an error of the token is reported, but the session stays settled
      let r := adjustToken o.token s.relayInfo delta w
      let info := if s.funding.source = .subscription then
          { s.relayInfo with subscriptionPostDelta := s.relayInfo.subscriptionPostDelta + delta }
        else s.relayInfo
      (r.1, ⟨{ s with relayInfo := info, fundingSettled := true, settled := true }, r.2⟩)

/-- The part of a refund that gives back what `Reserve` added on a subscription. -/
def refundExtra (o : Outcome) (s : BillingSession) (w : World) : Except Err Unit × World :=
  if 0 < s.extraReserved ∧ s.funding.source = .subscription ∧ 0 < s.relayInfo.subscriptionId then
    transact w (w.onSubs
      (postConsumeUserSubscriptionDelta o s.relayInfo.subscriptionId (-s.extraReserved) w.subs))
  else (.ok (), w)

def refundToken (o : Outcome) (s : BillingSession) (w : World) : Except Err Unit × World :=
  if 0 < s.tokenConsumed ∧ !s.relayInfo.isPlayground then
    transact w (increaseTokenQuota o s.relayInfo.tokenId s.tokenConsumed w)
  else (.ok (), w)

/-- `Refund`; the errors of its steps are only logged. -/
def refund (o : RefundSteps) (st : State) : State :=
  let s := st.session
  if s.settled || s.refunded || !s.needsRefund then st
  else
    let funding := s.funding.refund o st.world
    let extra := refundExtra o.extra s funding.2
    let token := refundToken o.token s extra.2
    ⟨{ s with refunded := true }, token.2⟩

structure ReserveSteps where
  funding : Outcome
  token : Outcome
  rollback : Outcome

/-- The error of a subscription without room, as the client sees it. -/
def subscriptionShort (e : Err) : APIError :=
  ⟨.insufficientUserQuota, "订阅额度不足或未配置订阅: " ++ e.text⟩

def reserveFunding (o : Outcome) (delta : Int) (w : World) :
    Funding → Except APIError (Funding × World)
  | .wallet userId consumed =>
    match decreaseUserQuota o userId delta w with
    | .error e => .error ⟨.updateDataError, e.text⟩
    | .ok (_, w') => .ok (.wallet userId (consumed + delta), w')
  | .subscription f =>
    match w.onSubs (postConsumeUserSubscriptionDelta o f.subscriptionId delta w.subs) with
    | .error e => .error (subscriptionShort e)
    | .ok (_, w') => .ok (.subscription f, w')

def rollbackFundingReserve (o : Outcome) (delta : Int) (w : World) : Funding → Funding × World
  | .wallet userId consumed =>
    match increaseUserQuota o userId delta w with
    | .error _ => (.wallet userId consumed, w)
    | .ok (_, w') => (.wallet userId (consumed - delta), w')
  | .subscription f =>
    (.subscription f, (transact w (w.onSubs
      (postConsumeUserSubscriptionDelta o f.subscriptionId (-delta) w.subs))).2)

def reserveToken (env : BillingEnv) (o : Outcome) (info : RelayInfo) (delta : Int) (w : World) :
    Except APIError (Unit × World) :=
  if delta ≤ 0 ∨ info.isPlayground then .ok ((), w)
  else match preConsumeTokenQuota env o info delta w with
    | .error e => .error ⟨.preConsumeTokenQuotaFailed, e.text⟩
    | .ok r => .ok r

def reserve (env : BillingEnv) (o : ReserveSteps) (targetQuota : Int) (st : State) :
    Except APIError Unit × State :=
  let s := st.session
  let delta := targetQuota - s.preConsumedQuota
  if s.settled || s.refunded || s.trusted || targetQuota ≤ s.preConsumedQuota then (.ok (), st)
  else if delta ≤ 0 then (.ok (), st)
  else match reserveFunding o.funding delta st.world s.funding with
    | .error e => (.error e, st)
    | .ok (f, w) =>
      match reserveToken env o.token s.relayInfo delta w with
      | .error e =>
        let r := rollbackFundingReserve o.rollback delta w f
        (.error e, ⟨{ s with funding := r.1 }, r.2⟩)
      | .ok (_, w') =>
        (.ok (), ⟨syncRelayInfo { s with
          funding := f
          preConsumedQuota := s.preConsumedQuota + delta
          tokenConsumed := s.tokenConsumed + delta
          extraReserved := s.extraReserved + delta }, w'⟩)

end BillingSession

end Qapi.Billing
