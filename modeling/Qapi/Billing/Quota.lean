import Qapi.Subscription.Bounds
import Qapi.Subscription.RefundOnce

/-!
# Balances

The balances that billing moves: the wallet quota of the users, the quota of the
tokens, and the subscription tables. A balance includes the changes that the
batch updater has accepted and not yet written, so in batch mode the writes here
never fail and otherwise they fail as the database does.
-/

namespace Qapi.Billing

open Qapi.Core Subscription

structure Token where
  remainQuota : Int
  usedQuota : Int
deriving DecidableEq, Repr

structure World where
  subs : Db
  users : Int → Int
  tokens : Int → Token

inductive BillingSource
  | unset
  | wallet
  | subscription
deriving DecidableEq, Repr

/-- What the relay knows about a request, as far as billing reads or writes it. -/
structure RelayInfo where
  requestId : String
  userId : Int
  tokenId : Int
  tokenUnlimited : Bool
  isPlayground : Bool
  forcePreConsume : Bool
  billingPreference : String
  userQuota : Int
  finalPreConsumedQuota : Int
  billingSource : BillingSource
  subscriptionId : Int
  subscriptionPreConsumed : Int
  subscriptionPostDelta : Int
  subscriptionAmountTotal : Int
  subscriptionAmountUsedAfterPreConsume : Int
  subscriptionPlanId : Int
  subscriptionPlanTitle : String
deriving DecidableEq, Repr

/-- What a billing call reads besides the balances: the environment of the
subscription tables, the server's own clock, the trust threshold, the token quota
that the middleware put into the request context, what the cache answers for the
quotas of the user and of the token (`none` when the database is asked), what the
lookup of the plan of a subscription answers, and how quotas are displayed. -/
structure BillingEnv where
  store : Env
  timestamp : Int
  trustQuota : Int
  contextTokenQuota : Int
  cachedUserQuota : Option Int
  cachedTokenQuota : Option Int
  planInfo : Int → Option (Int × String)
  formatQuota : Int → String

def negativeQuota : Err := .msg "quota 不能为负数！"

/-- A call on the subscription tables, seen from all balances. -/
def World.onSubs {α : Type} (w : World) (x : Except Err (α × Db)) : Except Err (α × World) := do
  let (a, db) ← x
  pure (a, { w with subs := db })

theorem World.onSubs_ok {α : Type} {w w' : World} {x : Except Err (α × Db)} {a : α}
    (h : w.onSubs x = .ok (a, w')) : ∃ db, x = .ok (a, db) ∧ w' = { w with subs := db } := by
  obtain ⟨⟨a', db⟩, hx, h⟩ := of_bind h
  cases h
  exact ⟨db, hx, rfl⟩

def World.addUser (w : World) (id delta : Int) : World :=
  { w with users := Function.update w.users id (w.users id + delta) }

/-- The balances after `delta` is moved from the used to the remaining quota of the token. -/
def World.addToken (w : World) (id delta : Int) : World :=
  { w with
    tokens := Function.update w.tokens id
      ⟨(w.tokens id).remainQuota + delta, (w.tokens id).usedQuota - delta⟩ }

section

variable (w : World) (id x y : Int)

@[simp] theorem World.addUser_subs : (w.addUser id x).subs = w.subs := rfl

@[simp] theorem World.addUser_tokens : (w.addUser id x).tokens = w.tokens := rfl

@[simp] theorem World.addToken_subs : (w.addToken id x).subs = w.subs := rfl

@[simp] theorem World.addToken_users : (w.addToken id x).users = w.users := rfl

@[simp] theorem World.addUser_self : (w.addUser id x).users id = w.users id + x := by
  simp [World.addUser]

@[simp] theorem World.addToken_self : ((w.addToken id x).tokens id).remainQuota =
    (w.tokens id).remainQuota + x := by
  simp [World.addToken]

theorem World.addUser_addUser : (w.addUser id x).addUser id y = w.addUser id (x + y) := by
  simp [World.addUser, add_assoc]

theorem World.addToken_addToken : (w.addToken id x).addToken id y = w.addToken id (x + y) := by
  simp only [World.addToken, Function.update_self, Function.update_idem, World.mk.injEq, true_and]
  congr 2
  · omega
  · omega

@[simp] theorem World.addUser_zero : w.addUser id 0 = w := by
  simp [World.addUser]

@[simp] theorem World.addToken_zero : w.addToken id 0 = w := by
  simp [World.addToken]

end

/-! ## The quota writers -/

/-- A quota writer: a negative amount is refused, and the statement may fail. -/
def quotaWrite (o : Outcome) (s : DbStep) (quota : Int) (after : World) :
    Except Err (Unit × World) := do
  failIf (quota < 0) negativeQuota
  stmt o s
  pure ((), after)

def increaseUserQuota (o : Outcome) (id quota : Int) (w : World) : Except Err (Unit × World) :=
  quotaWrite o .userQuota quota (w.addUser id quota)

def decreaseUserQuota (o : Outcome) (id quota : Int) (w : World) : Except Err (Unit × World) :=
  quotaWrite o .userQuota quota (w.addUser id (-quota))

def increaseTokenQuota (o : Outcome) (id quota : Int) (w : World) : Except Err (Unit × World) :=
  quotaWrite o .tokenQuota quota (w.addToken id quota)

def decreaseTokenQuota (o : Outcome) (id quota : Int) (w : World) : Except Err (Unit × World) :=
  quotaWrite o .tokenQuota quota (w.addToken id (-quota))

theorem quotaWrite_ok {o : Outcome} {s : DbStep} {quota : Int} {after w' : World} {u : Unit}
    (h : quotaWrite o s quota after = .ok (u, w')) : w' = after := by
  replace h := of_seq h
  replace h := of_seq h
  cases h
  rfl

theorem quotaWrite_good {o : Outcome} {s : DbStep} {quota : Int} {after : World} (hq : 0 ≤ quota)
    (ho : o s = none) : quotaWrite o s quota after = .ok ((), after) := by
  simp [quotaWrite, failIf_of_not (not_lt.mpr hq), stmt_of_none ho]

def preConsumeTokenQuota (env : BillingEnv) (o : Outcome) (info : RelayInfo) (quota : Int)
    (w : World) : Except Err (Unit × World) := do
  failIf (quota < 0) negativeQuota
  if info.isPlayground then pure ((), w)
  else
    stmt o .token
    let remain := env.cachedTokenQuota.getD (w.tokens info.tokenId).remainQuota
    failIf (!info.tokenUnlimited ∧ remain < quota)
      (.msg ("token quota is not enough, token remain quota: " ++ env.formatQuota remain ++
        ", need quota: " ++ env.formatQuota quota))
    decreaseTokenQuota o info.tokenId quota w

theorem preConsumeTokenQuota_ok {env : BillingEnv} {o : Outcome} {info : RelayInfo} {quota : Int}
    {w w' : World} {u : Unit} (h : preConsumeTokenQuota env o info quota w = .ok (u, w')) :
    w' = w.addToken info.tokenId (if info.isPlayground then 0 else -quota) := by
  replace h := of_seq h
  split at h
  · rename_i hp
    cases h
    simp [hp]
  · rename_i hp
    replace h := of_seq h
    replace h := of_seq h
    simpa [hp] using quotaWrite_ok h

def sampleWorld (wallet : Int) : World := ⟨purchased, fun _ => wallet, fun _ => ⟨1000, 0⟩⟩

end Qapi.Billing
