import Qapi.Billing.Lifecycle

/-!
# A request is billed exactly once

A session that `NewBillingSession` returns, followed through any number of
reservations, settlements and refunds: the source is out of the pre-consumed quota
while the bill is unpaid, of the settled amount once it is settled, and of nothing
once it is refunded, and so is the token when no step fails.

Negative amounts and repeated requests are the exception. A wallet session that is not trusted
records the quota it was opened with even where that is negative and nothing was
taken, a settlement on a subscription stops at a used amount of zero, and a second
session for a request that is recorded already takes nothing.
-/

namespace Qapi.Billing

open Qapi.Core Subscription BillingSession

/-! ## The token -/

def StepsSucceed (T : Tracked) : Op → Prop
  | .reserve _ _ _ => True
  | .settle o actualQuota => isOk (settle o actualQuota T.st).1 = true
  | .refund o =>
    let s := T.st.session
    let funding := s.funding.refund o T.st.world
    let extra := refundExtra o.extra s funding.2
    isOk funding.1 = true ∧ isOk extra.1 = true ∧ isOk (refundToken o.token s extra.2).1 = true

/-- The token `id` held `c` before the session, and is out of what the bill says since. -/
structure TokenInv (id c : Int) (p : Bool) (T : Tracked) : Prop where
  tokenId : T.st.session.relayInfo.tokenId = id
  isPlayground : T.st.session.relayInfo.isPlayground = p
  remain : (T.st.world.tokens id).remainQuota = c - if p then 0 else T.bill.owed T.st.session

theorem tokenInv_track {f₀ : Funding} {b id c : Int} {p : Bool} {T : Tracked} {op : Op}
    (hT : Inv f₀ b T) (hTok : TokenInv id c p T) (ha : Allowed T op) (hOk : StepsSucceed T op) :
    TokenInv id c p (track T op) := by
  obtain ⟨rfl, rfl, hRemain⟩ := hTok
  cases op with
  | reserve env o targetQuota =>
    rcases track_reserve hT ha with hStay | ⟨s, w, delta, w₁, rfl, -, hMoves, -, hNext⟩
    · rw [hStay]
      exact ⟨rfl, rfl, hRemain⟩
    · rw [hNext]
      refine ⟨by simp [reservedSession], by simp [reservedSession], ?_⟩
      have hBefore : (w.tokens s.relayInfo.tokenId).remainQuota =
          c - if s.relayInfo.isPlayground then 0 else s.preConsumedQuota := hRemain
      simp only [World.addToken_self, hMoves.tokens, hBefore, Bill.owed, reservedSession,
        syncRelayInfo_preConsumedQuota]
      split <;> omega
  | settle o actualQuota =>
    rcases track_settle hT ha with hStay | ⟨s, w, s', w₁, x, rfl, hNext, hs', hSettles, hx⟩
    · rw [hStay]
      exact ⟨rfl, rfl, hRemain⟩
    · rw [hNext]
      refine ⟨hs'.tokenId, hs'.isPlayground, ?_⟩
      have hBefore : (w.tokens s.relayInfo.tokenId).remainQuota =
          c - if s.relayInfo.isPlayground then 0 else s.preConsumedQuota := hRemain
      simp only [World.addToken_self, hSettles.tokens, hBefore, Bill.owed, hx hOk]
      split <;> omega
  | refund o =>
    rcases track_refund hT ha with hStay | ⟨s, w, w₁, x, rfl, hNext, hShifts, hx, rfl⟩
    · rw [hStay]
      exact ⟨rfl, rfl, hRemain⟩
    · rw [hNext]
      refine ⟨rfl, rfl, ?_⟩
      have hBefore : (w.tokens s.relayInfo.tokenId).remainQuota =
          c - if s.relayInfo.isPlayground then 0 else s.preConsumedQuota := hRemain
      obtain ⟨hFunding, hExtra, hToken⟩ := hOk
      simp only at hFunding hExtra hToken
      have hc : Counters s w := hT.phase
      simp only [World.addToken_self, hShifts.tokens, hBefore, Bill.owed, hx hToken, hc.token,
        refundRest, hFunding, hExtra, if_true]
      split <;> omega

/-! ## Opening a session -/

/-- How much of the source of the session was used before it was opened; for a
subscription, after the reset that was due. -/
def UsedBefore (env : BillingEnv) (s : BillingSession) (w : World) (b : Int) : Prop :=
  match s.funding with
  | .wallet userId _ => b = -w.users userId
  | .subscription f => ∃ sub d, w.subs.subs.find? f.subscriptionId = some sub ∧
      LazyReset env.store sub d ∧ b = (d.row sub).amountUsed

/-- The relay info names the source of the session. -/
def InfoMatches (s : BillingSession) : Prop :=
  s.relayInfo.billingSource = s.funding.source ∧
    match s.funding with
    | .wallet userId _ => s.relayInfo.userId = userId
    | .subscription f => s.relayInfo.subscriptionId = f.subscriptionId

/-- A session that has just been opened: the source is out of the pre-consumed quota,
or of nothing where that is negative. -/
structure Started (env : BillingEnv) (s : BillingSession) (w w₁ : World) (b : Int) : Prop where
  before : UsedBefore env s w b
  bounds : w₁.subs.AllRows InBounds
  used : fundingUsed s.funding w₁ = some (b + max s.preConsumedQuota 0)
  base : s.funding.source = .subscription → 0 ≤ b
  nonneg : s.funding.source = .subscription → 0 ≤ s.preConsumedQuota
  settled : s.settled = false
  fundingSettled : s.fundingSettled = false
  info : InfoMatches s

variable {env : BillingEnv} {o : TrySteps} {info : RelayInfo} {quota : Int} {w w₁ : World}
  {s : BillingSession}

theorem tryWallet_started (hw : w.subs.AllRows InBounds)
    (h : tryWallet env o info quota w = (.ok s, w₁)) : ∃ b, Started env s w w₁ b := by
  obtain ⟨userQuota, -, -, h⟩ := tryWallet_preConsume h
  obtain ⟨f, hFunding, rfl⟩ := preConsume_session h
  obtain ⟨rfl, rfl⟩ := walletPreConsume_ok hFunding
  refine ⟨-w.users info.userId, ?_, hw, ?_, ?_, ?_, ?_, ?_, ?_⟩
  · simp [UsedBefore]
  · simp only [syncRelayInfo_funding, fundingUsed, World.addUser_self, World.addToken_users,
      syncRelayInfo_preConsumedQuota, Option.some.injEq]
    omega
  · simp [Funding.source]
  · simp [Funding.source]
  · simp [newSession]
  · simp [newSession]
  · simp [InfoMatches, syncRelayInfo, newSession]

theorem trySubscription_started (hw : w.subs.AllRows InBounds)
    (hFresh : w.subs.records.find? info.requestId = none)
    (h : trySubscription env o info quota w = (.ok s, w₁)) : ∃ b, Started env s w w₁ b := by
  obtain ⟨f, hFunding, rfl⟩ := preConsume_session h
  rw [effectiveQuota_subscription] at *
  obtain ⟨r, db, hPre, rfl, rfl⟩ := subscriptionPreConsume_ok hFunding
  have hPos := subConsume_pos quota
  have hBounds : db.AllRows InBounds := rowInvariant_inBounds.preConsume hPre hw
  obtain ⟨-, ⟨record, -, hRecord, -⟩ | ⟨-, passed, sub, rest, d, hl, hc⟩⟩ := preConsume_ok hPre
  · exact absurd (hRecord.symm.trans hFresh) (by simp)
  have hMem : sub ∈ activeSubs env.store.now info.userId w.subs := by
    rw [show activeSubs env.store.now info.userId w.subs = _ from hl]
    simp
  have hSub : w.subs.subs.find? sub.id = some sub := activeSubs_stored sub hMem
  have hBase : 0 ≤ (d.row sub).amountUsed := (inBounds_row d (hw.find hSub)).1
  have hRow : db.subs.find? sub.id = some (charged (d.row sub) (subConsume quota)) := hc.row
  rw [hc.result]
  refine ⟨(d.row sub).amountUsed, ?_, hBounds, ?_, fun _ => hBase, ?_, ?_, ?_, ?_⟩
  · simp only [UsedBefore, syncRelayInfo_funding]
    exact ⟨sub, d, hSub, hc.lazy, rfl⟩
  · simp only [syncRelayInfo_funding, fundingUsed, hRow, Option.map_some,
      syncRelayInfo_preConsumedQuota, max_eq_left hPos.le]
    rfl
  · simpa using fun _ => hPos.le
  · simp [newSession]
  · simp [newSession]
  · simp [InfoMatches, syncRelayInfo]

/-- What holds of a session that has just been opened with a quota that is not negative. -/
structure Opened (env : BillingEnv) (info : RelayInfo) (s : BillingSession) (w w₁ : World)
    (b : Int) : Prop where
  before : UsedBefore env s w b
  inv : Inv s.funding b ⟨⟨s, w₁⟩, .unpaid⟩
  token : TokenInv info.tokenId (w.tokens info.tokenId).remainQuota info.isPlayground
    ⟨⟨s, w₁⟩, .unpaid⟩

theorem Started.inv {b : Int} (h : Started env s w w₁ b) (hc : Counters s w₁) :
    Inv s.funding b ⟨⟨s, w₁⟩, .unpaid⟩ := by
  refine ⟨h.bounds, ?_, ⟨fun _ => rfl, fun _ => rfl⟩, h.base, hc⟩
  have hUsed := h.used
  rwa [max_eq_left hc.nonneg] at hUsed

theorem tryWallet_opened (hw : w.subs.AllRows InBounds)
    (hQuota : s.trusted = false → s.funding.source = .wallet → 0 ≤ quota)
    (h : tryWallet env o info quota w = (.ok s, w₁)) : ∃ b, Opened env info s w w₁ b := by
  obtain ⟨b, hStarted⟩ := tryWallet_started hw h
  obtain ⟨userQuota, -, -, h⟩ := tryWallet_preConsume h
  obtain ⟨f, hFunding, rfl⟩ := preConsume_session h
  obtain ⟨rfl, rfl⟩ := walletPreConsume_ok hFunding
  set s₀ := newSession { info with userQuota := userQuota } (.wallet info.userId 0) with hs₀
  have hNonneg : 0 ≤ effectiveQuota env s₀ quota := by
    unfold effectiveQuota
    cases hTrust : s₀.shouldTrust env with
    | true => simp
    | false =>
      simp only [syncRelayInfo_trusted, syncRelayInfo_funding, hTrust] at hQuota
      simpa using hQuota trivial rfl
  have hMax : max (effectiveQuota env s₀ quota) 0 = effectiveQuota env s₀ quota :=
    max_eq_left hNonneg
  have hToken : (if effectiveQuota env s₀ quota > 0 then effectiveQuota env s₀ quota
      else s₀.tokenConsumed) = effectiveQuota env s₀ quota := by
    split
    · rfl
    · show (0 : Int) = _
      omega
  refine ⟨b, hStarted.before, hStarted.inv ?_, ?_⟩
  · refine ⟨hStarted.settled, hStarted.fundingSettled, by simp [hs₀, newSession], by simp [hToken],
      by simpa using hNonneg, ?_⟩
    simp [SourceCounters, hNonneg]
  · refine ⟨by simp [hs₀, newSession], by simp [hs₀, newSession], ?_⟩
    simp only [World.addUser_tokens, Bill.owed, syncRelayInfo_preConsumedQuota, hMax]
    simp only [hs₀, newSession, World.addToken_self]
    split <;> omega

theorem trySubscription_opened (hw : w.subs.AllRows InBounds)
    (hFresh : w.subs.records.find? info.requestId = none)
    (h : trySubscription env o info quota w = (.ok s, w₁)) : ∃ b, Opened env info s w w₁ b := by
  obtain ⟨b, hStarted⟩ := trySubscription_started hw hFresh h
  obtain ⟨f, hFunding, rfl⟩ := preConsume_session h
  rw [effectiveQuota_subscription] at *
  obtain ⟨r, db, hPre, rfl, rfl⟩ := subscriptionPreConsume_ok hFunding
  have hPos := subConsume_pos quota
  obtain ⟨-, ⟨record, -, hRecord, -⟩ | ⟨-, passed, sub, rest, d, hl, hc⟩⟩ := preConsume_ok hPre
  · exact absurd (hRecord.symm.trans hFresh) (by simp)
  refine ⟨b, hStarted.before, hStarted.inv ?_, ?_⟩
  · refine ⟨hStarted.settled, hStarted.fundingSettled, by simp [newSession], by simp [hPos],
      by simpa using hPos.le, ?_⟩
    simp only [SourceCounters, syncRelayInfo_funding, hc.result]
    refine ⟨by simp [newSubscriptionFunding, newSession], hPos, by simp [newSession],
      by simp [newSession], by simp [syncRelayInfo], ?_⟩
    exact ⟨_, Table.find?_create_self hc.record, rfl, rfl, rfl⟩
  · refine ⟨by simp [newSession], by simp [newSession], ?_⟩
    simp only [Bill.owed, syncRelayInfo_preConsumedQuota, newSession, World.addToken_self,
      max_eq_left hPos.le]
    split <;> omega

theorem rollbackToken_sources (o : Outcome) (info : RelayInfo) (tokenConsumed : Int) (w : World) :
    (rollbackToken o info tokenConsumed w).users = w.users ∧
      (rollbackToken o info tokenConsumed w).subs = w.subs := by
  unfold rollbackToken
  split
  · rcases hInc : increaseTokenQuota o info.tokenId tokenConsumed w with e | ⟨u, w'⟩
    · exact ⟨rfl, rfl⟩
    · rw [quotaWrite_ok hInc]
      exact ⟨rfl, rfl⟩
  · exact ⟨rfl, rfl⟩

/-- The balances `w'` that a failed try leaves: the sources are as they were, and the
token is too when the rollback goes through. -/
structure Undone (w w' : World) (rolledBack : Prop) : Prop where
  users : w'.users = w.users
  subs : w'.subs = w.subs
  all : rolledBack → w' = w

theorem preConsume_undone {w' : World} {e : APIError} (hNew : s.tokenConsumed = 0)
    (h : preConsume env o quota s w = (.error e, w')) :
    Undone w w' (o.rollback .tokenQuota = none) := by
  have hSources : w'.users = w.users ∧ w'.subs = w.subs := by
    unfold preConsume at h
    dsimp only at h
    split at h
    · cases h
      exact ⟨rfl, rfl⟩
    rename_i u w₁ hToken
    rw [preConsume_token hToken] at h
    split at h
    · cases h
      exact rollbackToken_sources _ _ _ _
    · cases h
  exact ⟨hSources.1, hSources.2, fun hRollback => preConsume_error hNew hRollback h⟩

theorem tryWallet_undone {w' : World} {e : APIError}
    (h : tryWallet env o info quota w = (.error e, w')) :
    Undone w w' (o.rollback .tokenQuota = none) := by
  unfold tryWallet at h
  split at h
  · cases h
    exact ⟨rfl, rfl, fun _ => rfl⟩
  split at h
  · cases h
    exact ⟨rfl, rfl, fun _ => rfl⟩
  split at h
  · cases h
    exact ⟨rfl, rfl, fun _ => rfl⟩
  · exact preConsume_undone rfl h

theorem newBillingSession_try {o : OpenSteps}
    (h : newBillingSession env o info quota w = (.ok s, w₁)) :
    ∃ w₀, Undone w w₀ o.RollbacksSucceed ∧
      (tryWallet env o.wallet info quota w₀ = (.ok s, w₁) ∨
        trySubscription env o.subscription info quota w₀ = (.ok s, w₁)) := by
  have hSame : Undone w w o.RollbacksSucceed := ⟨rfl, rfl, fun _ => rfl⟩
  unfold newBillingSession at h
  split at h
  · exact ⟨w, hSame, Or.inr h⟩
  · exact ⟨w, hSame, Or.inl h⟩
  · split at h
    · rename_i e w' hTry
      have hUndone := tryWallet_undone hTry
      split at h
      · exact ⟨w', ⟨hUndone.users, hUndone.subs, fun ho => hUndone.all ho.wallet⟩, Or.inr h⟩
      · cases h
    · exact ⟨w, hSame, Or.inl h⟩
  · split at h
    · cases h
    · exact ⟨w, hSame, Or.inl h⟩
    · split at h
      · rename_i e w' hTry
        have hUndone := preConsume_undone rfl hTry
        split at h
        · unfold overflowToWallet at h
          split at h
          · cases h
          · exact ⟨w', ⟨hUndone.users, hUndone.subs, fun ho => hUndone.all ho.subscription⟩,
              Or.inl h⟩
          · cases h
        · cases h
      · exact ⟨w, hSame, Or.inr h⟩

theorem UsedBefore.of_undone {w₀ : World} {b : Int} {p : Prop} (hUndone : Undone w w₀ p)
    (h : UsedBefore env s w₀ b) : UsedBefore env s w b := by
  unfold UsedBefore at h ⊢
  rwa [hUndone.users, hUndone.subs] at h

/-! ## Exactly once -/

/-- The life of a session that `NewBillingSession` returned, for a request that was
not recorded before and, in an untrusted wallet session, a quota that is not
negative. After every run of calls in which no settlement follows a refund, the
source is out of what the bill says. When no step fails, so is the token. -/
theorem billed_exactly_once {env : BillingEnv} {o : OpenSteps} {info : RelayInfo} {quota : Int}
    {w w₁ : World} {s : BillingSession} (hw : Reachable w.subs)
    (hNew : newBillingSession env o info quota w = (.ok s, w₁))
    (hFresh : w.subs.records.find? info.requestId = none)
    (hQuota : s.trusted = false → s.funding.source = .wallet → 0 ≤ quota) :
    ∃ b, UsedBefore env s w b ∧ ∀ l, Guarded track Allowed ⟨⟨s, w₁⟩, .unpaid⟩ l →
      let T := run track ⟨⟨s, w₁⟩, .unpaid⟩ l
      fundingUsed s.funding T.st.world = some (T.bill.used s.funding b T.st.session) ∧
      (o.RollbacksSucceed → Guarded track StepsSucceed ⟨⟨s, w₁⟩, .unpaid⟩ l →
        (T.st.world.tokens info.tokenId).remainQuota = (w.tokens info.tokenId).remainQuota -
          if info.isPlayground then 0 else T.bill.owed T.st.session) := by
  obtain ⟨w₀, hUndone, hTry⟩ := newBillingSession_try hNew
  have hBounds : w₀.subs.AllRows InBounds := hUndone.subs ▸ hw.inBounds
  have hOpened : ∃ b, Opened env info s w₀ w₁ b := by
    rcases hTry with hTry | hTry
    · exact tryWallet_opened hBounds hQuota hTry
    · exact trySubscription_opened hBounds (hUndone.subs ▸ hFresh) hTry
  obtain ⟨b, hb⟩ := hOpened
  refine ⟨b, hb.before.of_undone hUndone, ?_⟩
  intro l hl
  have hInv : Inv s.funding b (run track ⟨⟨s, w₁⟩, .unpaid⟩ l) :=
    Guarded.invariant inv_track hb.inv hl
  refine ⟨by rw [← hInv.same.used, hInv.used, hInv.same.bill_used], fun ho hOk => ?_⟩
  have hBoth := Guarded.invariant
    (I := fun T => Inv s.funding b T ∧
      TokenInv info.tokenId (w₀.tokens info.tokenId).remainQuota info.isPlayground T)
    (fun T op hT hc => ⟨inv_track T op hT.1 hc.1, tokenInv_track hT.1 hT.2 hc.1 hc.2⟩)
    ⟨hb.inv, hb.token⟩ (hl.and hOk)
  rw [← hUndone.all ho]
  exact hBoth.2.remain

def smoothOpening : OpenSteps :=
  ⟨⟨.good, .good, .good, .good⟩, ⟨.good, .good, .good, .good⟩, .good, .good⟩

/-- A request charged to a subscription and settled at a higher amount. -/
theorem subscription_request_billed_once :
    ∃ s w₁ b, newBillingSession sampleEnv smoothOpening (sampleInfo "subscription_only") 50
        (sampleWorld 300) = (.ok s, w₁) ∧
      UsedBefore sampleEnv s (sampleWorld 300) b ∧
      let T := run track ⟨⟨s, w₁⟩, .unpaid⟩ [.settle ⟨.good, .good⟩ 70]
      fundingUsed s.funding T.st.world = some (T.bill.used s.funding b T.st.session) := by
  have hOpen : (match newBillingSession sampleEnv smoothOpening (sampleInfo "subscription_only") 50
      (sampleWorld 300) with
      | (.ok s, _) => !s.refunded
      | (.error _, _) => false) = true := by decide
  rcases h : newBillingSession sampleEnv smoothOpening (sampleInfo "subscription_only") 50
    (sampleWorld 300) with ⟨e | s, w₁⟩
  · rw [h] at hOpen
    cases hOpen
  · rw [h] at hOpen
    have hNot : s.refunded = false := by simpa using hOpen
    obtain ⟨b, hb, hRuns⟩ := billed_exactly_once purchased_reachable h rfl fun _ _ => by decide
    exact ⟨s, w₁, b, rfl, hb, (hRuns [.settle ⟨.good, .good⟩ 70] ⟨hNot, trivial⟩).1⟩

def sampleSession (pref : String) (quota : Int) (w : World) : Option Tracked :=
  match newBillingSession sampleEnv smoothOpening (sampleInfo pref) quota w with
  | (.ok s, w') => some ⟨⟨s, w'⟩, .unpaid⟩
  | (.error _, _) => none

/-- What the source has been out of since `w`, and what the bill says. -/
def takenAndOwed (w : World) (T : Tracked) : Option Int × Int :=
  let f := T.st.session.funding
  ((fundingUsed f T.st.world).bind fun x => (fundingUsed f w).map (x - ·),
    T.bill.owed T.st.session)

/-- A wallet session opened with a negative quota has taken nothing; a negative
settlement on a subscription that was not used before takes nothing; and a second
session for a request that is recorded takes nothing. -/
theorem negative_or_repeated_requests_take_nothing :
    (sampleSession "wallet_only" (-5) (sampleWorld 300)).map (takenAndOwed (sampleWorld 300)) =
      some (some 0, -5) ∧
    ((sampleSession "subscription_only" 50 (sampleWorld 300)).map fun T =>
      takenAndOwed (sampleWorld 300) (track T (.settle ⟨.good, .good⟩ (-5)))) =
      some (some 0, -5) ∧
    ((sampleSession "subscription_only" 50 (sampleWorld 300)).bind fun T =>
      (sampleSession "subscription_only" 50 T.st.world).map (takenAndOwed T.st.world)) =
      some (some 0, 50) := by
  decide

end Qapi.Billing
