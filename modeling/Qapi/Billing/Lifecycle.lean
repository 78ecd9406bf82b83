import Qapi.Billing.Atomic

/-!
# The life of a session

The calls on a session are reservations, settlements and refunds, in any order
and number. `Bill` is what they are for: a request is open, or it has been settled
at an amount, or it has been refunded up to a rest that could not be given back.
`track` runs the calls and the bill side by side, and `Inv` ties the flags and
counters of the session to the bill and to the balance of the source.
-/

namespace Qapi.Billing

open Qapi.Core Subscription BillingSession Table Option

/-! ## The source's side of a change -/

/-- How much of the source has been used, up to a constant. -/
def fundingUsed (f : Funding) (w : World) : Option Int :=
  match f with
  | .wallet userId _ => some (-w.users userId)
  | .subscription f => (w.subs.subs.find? f.subscriptionId).map (·.amountUsed)

/-- The change does not hit the floor of the used amount at zero. -/
def Unclamped (f : Funding) (delta : Int) (w : World) : Prop :=
  match f with
  | .wallet _ _ => True
  | .subscription f => ∀ row, w.subs.subs.find? f.subscriptionId = some row →
      0 ≤ row.amountUsed + delta

def floored (f : Funding) (x : Int) : Int :=
  match f with
  | .wallet _ _ => x
  | .subscription _ => max x 0

/-- The source is used by `delta` more, and no token changes. -/
structure Shifts (f : Funding) (delta : Int) (w w' : World) : Prop where
  used : fundingUsed f w' = (fundingUsed f w).map (· + delta)
  tokens : w'.tokens = w.tokens
  bounds : w.subs.AllRows InBounds → w'.subs.AllRows InBounds

/-- The same, and no pre-consume record changes. -/
structure Moves (f : Funding) (delta : Int) (w w' : World) : Prop extends
    Shifts f delta w w' where
  records : w'.subs.records = w.subs.records

@[simp] theorem fundingUsed_addToken (f : Funding) (w : World) (id x : Int) :
    fundingUsed f (w.addToken id x) = fundingUsed f w := rfl

theorem moves_refl (f : Funding) (w : World) : Moves f 0 w w where
  used := by cases fundingUsed f w <;> simp
  tokens := rfl
  records := rfl
  bounds h := h

variable {f : Funding}

theorem Shifts.trans {x y : Int} {w₁ w₂ w₃ : World} (h₁ : Shifts f x w₁ w₂)
    (h₂ : Shifts f y w₂ w₃) : Shifts f (x + y) w₁ w₃ where
  used := by
    rw [h₂.used, h₁.used]
    cases fundingUsed f w₁ with
    | none => rfl
    | some used => simp only [map_some, add_assoc]
  tokens := h₂.tokens.trans h₁.tokens
  bounds h := h₂.bounds (h₁.bounds h)

theorem moves_addUser (userId consumed delta : Int) (w : World) :
    Moves (.wallet userId consumed) delta w (w.addUser userId (-delta)) where
  used := by
    simp only [fundingUsed, World.addUser_self, map_some, Option.some.injEq]
    omega
  tokens := rfl
  records := rfl
  bounds h := h

variable {o : Outcome} {delta : Int} {w : World}

theorem moves_postConsume {f : SubscriptionFunding} {w' : World} {u : Unit}
    (hClamp : Unclamped (.subscription f) delta w) (h : w.onSubs
      (postConsumeUserSubscriptionDelta o f.subscriptionId delta w.subs) = .ok (u, w')) :
    Moves (.subscription f) delta w w' := by
  obtain ⟨db, hdb, rfl⟩ := World.onSubs_ok h
  obtain ⟨rfl, rfl⟩ | ⟨sub, hSub, rfl, -⟩ := postConsume_ok hdb
  · exact moves_refl _ w
  · have hKey : sub.id = f.subscriptionId := key_of_find? hSub
    have hRow : (w.subs.saveSub (adjusted sub delta)).subs.find? f.subscriptionId =
        some (adjusted sub delta) := find?_save_self hKey hSub
    refine ⟨⟨?_, rfl, fun hw => rowInvariant_inBounds.postConsume hdb hw⟩, rfl⟩
    simp only [fundingUsed, hRow, hSub, map_some, adjusted_amountUsed,
      usedAfter_of_nonneg (hClamp sub hSub)]

/-- What a settlement of the difference `delta` does to the source. -/
structure Settles (f : Funding) (delta : Int) (w w' : World) : Prop where
  used : fundingUsed f w' = (fundingUsed f w).map fun x => floored f (x + delta)
  tokens : w'.tokens = w.tokens
  bounds : w'.subs.AllRows InBounds

theorem settles_refl (hw : w.subs.AllRows InBounds) :
    Settles f 0 w w where
  used := by
    cases f with
    | wallet userId consumed => simp [fundingUsed, floored]
    | subscription f =>
      cases hRow : w.subs.subs.find? f.subscriptionId with
      | none => simp [fundingUsed, hRow]
      | some row =>
        have hUsed := (hw.find hRow).1
        simp [fundingUsed, hRow, floored, max_eq_left hUsed]
  tokens := rfl
  bounds := hw

theorem settle_settles {w' : World} {u : Unit} (hw : w.subs.AllRows InBounds)
    (h : f.settle o delta w = .ok (u, w')) : Settles f delta w w' := by
  cases f with
  | wallet userId consumed =>
    have hMoves := moves_addUser userId consumed delta w
    simp only [Funding.settle] at h
    split at h
    · rename_i hZero
      cases h
      subst hZero
      exact settles_refl hw
    split at h
    · rw [quotaWrite_ok h]
      exact ⟨hMoves.used, rfl, hw⟩
    · rw [quotaWrite_ok h]
      exact ⟨hMoves.used, rfl, hw⟩
  | subscription f =>
    simp only [Funding.settle] at h
    split at h
    · rename_i hZero
      cases h
      subst hZero
      exact settles_refl hw
    · obtain ⟨db, hdb, rfl⟩ := World.onSubs_ok h
      have hBounds : db.AllRows InBounds := rowInvariant_inBounds.postConsume hdb hw
      obtain ⟨rfl, rfl⟩ | ⟨sub, hSub, rfl, -⟩ := postConsume_ok hdb
      · exact settles_refl hw
      · have hKey : sub.id = f.subscriptionId := key_of_find? hSub
        have hRow : (w.subs.saveSub (adjusted sub delta)).subs.find? f.subscriptionId =
            some (adjusted sub delta) := find?_save_self hKey hSub
        refine ⟨?_, rfl, hBounds⟩
        simp only [fundingUsed, hRow, hSub, map_some, adjusted_amountUsed, usedAfter,
          floored]

def Funding.reserved (delta : Int) : Funding → Funding
  | .wallet userId consumed => .wallet userId (consumed + delta)
  | .subscription f => .subscription f

/-- The two describe the same source, with counters that may differ. -/
structure SameSource (f f₀ : Funding) : Prop where
  used : ∀ w, fundingUsed f w = fundingUsed f₀ w
  floor : ∀ x, floored f x = floored f₀ x

variable {f₀ : Funding}

theorem SameSource.reserved (h : SameSource f f₀) (delta : Int) :
    SameSource (f.reserved delta) f₀ := by
  cases f with
  | wallet userId consumed => exact ⟨h.used, h.floor⟩
  | subscription f => exact h

theorem fundingUsed_reserved (f : Funding) (delta : Int) (w : World) :
    fundingUsed (f.reserved delta) w = fundingUsed f w := by
  cases f <;> rfl

theorem unclamped_of_nonneg (hw : w.subs.AllRows InBounds) (hDelta : 0 ≤ delta) :
    Unclamped f delta w := by
  cases f with
  | wallet => trivial
  | subscription f =>
    intro row hRow
    have := (hw.find hRow).1
    omega

theorem reserveFunding_moves {f' : Funding} {w' : World} (hw : w.subs.AllRows InBounds)
    (hDelta : 0 < delta) (h : reserveFunding o delta w f = .ok (f', w')) :
    f' = f.reserved delta ∧ Moves f delta w w' ∧
      (∀ sf, f = .subscription sf → 0 < sf.subscriptionId) := by
  cases f with
  | wallet userId consumed =>
    simp only [reserveFunding] at h
    split at h
    · cases h
    · rename_i u w₁ hWrite
      cases h
      rw [quotaWrite_ok hWrite]
      exact ⟨rfl, moves_addUser userId consumed delta w, fun sf hsf => by cases hsf⟩
  | subscription sf =>
    simp only [reserveFunding] at h
    split at h
    · cases h
    · rename_i u w₁ hPost
      cases h
      obtain ⟨db, hdb, -⟩ := World.onSubs_ok hPost
      refine ⟨rfl, moves_postConsume (unclamped_of_nonneg hw hDelta.le) hPost, ?_⟩
      intro sf' hsf
      cases hsf
      exact postConsume_pos hdb

/-! ## Calls and bills -/

inductive Op
  | reserve (env : BillingEnv) (o : ReserveSteps) (targetQuota : Int)
  | settle (o : SettleSteps) (actualQuota : Int)
  | refund (o : RefundSteps)

def State.next (st : State) : Op → State
  | .reserve env o targetQuota => (reserve env o targetQuota st).2
  | .settle o actualQuota => (settle o actualQuota st).2
  | .refund o => refund o st

inductive Bill
  | unpaid
  | settled (amount : Int)
  | refunded (rest : Int)
deriving DecidableEq, Repr

def Bill.owed (s : BillingSession) : Bill → Int
  | unpaid => s.preConsumedQuota
  | settled amount => amount
  | refunded rest => rest

/-- How much of the source has been used according to the bill, when `b` was used
before the session. -/
def Bill.used (f : Funding) (b : Int) (s : BillingSession) : Bill → Int
  | settled amount => floored f (b + amount)
  | bill => b + bill.owed s

theorem SameSource.bill_used (h : SameSource f f₀) (b : Int) (s : BillingSession) (bill : Bill) :
    bill.used f b s = bill.used f₀ b s := by
  cases bill with
  | settled amount => exact h.floor _
  | unpaid => rfl
  | refunded rest => rfl

/-- The source's step of a settlement goes through, or there is nothing to do. -/
def settleTakesEffect (o : SettleSteps) (actualQuota : Int) (st : State) : Bool :=
  actualQuota = st.session.preConsumedQuota ||
    isOk (st.session.funding.settle o.funding (actualQuota - st.session.preConsumedQuota) st.world)

/-- The part of the pre-consumed quota that a refund gives back separately. -/
def separateExtra (s : BillingSession) : Int :=
  match s.funding with
  | .wallet _ _ => 0
  | .subscription _ => s.extraReserved

/-- What the steps of a refund that failed leave taken from the source. -/
def refundRest (o : RefundSteps) (st : State) : Int :=
  let funding := st.session.funding.refund o st.world
  (if isOk funding.1 then 0 else st.session.preConsumedQuota - separateExtra st.session) +
    (if isOk (refundExtra o.extra st.session funding.2).1 then 0 else separateExtra st.session)

/-- The bill after the call: the first settlement whose step on the source goes
through settles it, and the first refund of a session that needs one refunds it. -/
def billAfter (st : State) (b : Bill) (op : Op) : Bill :=
  match b, op with
  | .unpaid, .settle o actualQuota =>
    if settleTakesEffect o actualQuota st then .settled actualQuota else .unpaid
  | .unpaid, .refund o =>
    if st.session.needsRefund then .refunded (refundRest o st) else .unpaid
  | b, _ => b

structure Tracked where
  st : State
  bill : Bill

def track (T : Tracked) (op : Op) : Tracked := ⟨T.st.next op, billAfter T.st T.bill op⟩

/-- The calls that are considered: the rollback of a reservation goes through, no
settlement comes after a refund, and no attempt of a refund fails after it has had
an effect. -/
def Allowed (T : Tracked) : Op → Prop
  | .reserve _ o _ => ∀ s, o.rollback s = none
  | .settle _ _ => T.st.session.refunded = false
  | .refund o => ∀ f, T.st.session.funding = .subscription f →
      Guarded (attempt f.requestId) (fun db a => ¬ LateFailure f.requestId db a) T.st.world.subs
        (retries o.attempts)

/-! ## The invariant -/

/-- The counters of a session on the subscription `f` whose bill is unpaid. -/
structure SubscriptionCounters (s : BillingSession) (f : SubscriptionFunding) (w : World) :
    Prop where
  sum : f.preConsumed + s.extraReserved = s.preConsumedQuota
  pos : 0 < f.preConsumed
  extra : 0 ≤ s.extraReserved
  reserved : 0 < s.extraReserved → 0 < f.subscriptionId
  info : s.relayInfo.subscriptionId = f.subscriptionId
  record : ∃ r, w.subs.records.find? f.requestId = some r ∧ r.status = .consumed ∧
    r.preConsumed = f.preConsumed ∧ r.userSubscriptionId = f.subscriptionId

/-- The source's counters of a session whose bill is unpaid. -/
def SourceCounters (s : BillingSession) (w : World) : Prop :=
  match s.funding with
  | .wallet _ consumed => consumed = s.preConsumedQuota
  | .subscription f => SubscriptionCounters s f w

/-- The flags and counters of a session whose bill is unpaid. -/
structure Counters (s : BillingSession) (w : World) : Prop where
  settled : s.settled = false
  fundingSettled : s.fundingSettled = false
  refunded : s.refunded = false
  token : s.tokenConsumed = s.preConsumedQuota
  nonneg : 0 ≤ s.preConsumedQuota
  source : SourceCounters s w

/-- The flags of the session say what the bill says. -/
def Phase (T : Tracked) : Prop :=
  match T.bill with
  | .unpaid => Counters T.st.session T.st.world
  | .settled _ => T.st.session.settled = true
  | .refunded _ => T.st.session.settled = false ∧ T.st.session.refunded = true

/-- The source `f₀` has been used by `b` before the session, and by what the bill
says since. -/
structure Inv (f₀ : Funding) (b : Int) (T : Tracked) : Prop where
  bounds : T.st.world.subs.AllRows InBounds
  used : fundingUsed T.st.session.funding T.st.world =
    some (T.bill.used T.st.session.funding b T.st.session)
  same : SameSource T.st.session.funding f₀
  base : T.st.session.funding.source = .subscription → 0 ≤ b
  phase : Phase T

/-! ## Reservations -/

def reservedSession (s : BillingSession) (delta : Int) : BillingSession :=
  syncRelayInfo { s with
    funding := s.funding.reserved delta
    preConsumedQuota := s.preConsumedQuota + delta
    tokenConsumed := s.tokenConsumed + delta
    extraReserved := s.extraReserved + delta }

variable {env : BillingEnv}

theorem reserveToken_ok {info : RelayInfo} {w' : World} {u : Unit} (hDelta : 0 < delta)
    (h : reserveToken env o info delta w = .ok (u, w')) :
    w' = w.addToken info.tokenId (if info.isPlayground then 0 else -delta) := by
  unfold reserveToken at h
  split at h
  · rename_i hSkip
    cases h
    have hPlay : info.isPlayground = true := hSkip.resolve_left (not_le.mpr hDelta)
    simp [hPlay]
  · split at h
    · cases h
    · rename_i r hToken
      cases h
      exact preConsumeTokenQuota_ok hToken

/-- What a reservation can do, when its rollback goes through: nothing, or take
`delta` more from the source and from the token. -/
theorem reserve_cases {o : ReserveSteps} {targetQuota : Int} {st st' : State}
    {res : Except APIError Unit} (hw : st.world.subs.AllRows InBounds)
    (hRollback : ∀ s, o.rollback s = none) (h : reserve env o targetQuota st = (res, st')) :
    st' = st ∨ ∃ delta w₁, 0 < delta ∧ st.session.settled = false ∧ st.session.refunded = false ∧
      Moves st.session.funding delta st.world w₁ ∧
      (∀ sf, st.session.funding = .subscription sf → 0 < sf.subscriptionId) ∧
      st' = ⟨reservedSession st.session delta, w₁.addToken st.session.relayInfo.tokenId
        (if st.session.relayInfo.isPlayground then 0 else -delta)⟩ := by
  cases res with
  | error e => exact Or.inl (reserve_error hw hRollback h)
  | ok u =>
    unfold reserve at h
    dsimp only at h
    split at h
    · cases h
      exact Or.inl rfl
    rename_i hOpen
    simp only [Bool.or_eq_true, not_or, Bool.not_eq_true] at hOpen
    split at h
    · cases h
      exact Or.inl rfl
    rename_i hDelta
    split at h
    · cases h
    rename_i f w₁ hFunding
    split at h
    · cases h
    rename_i u w₂ hToken
    cases h
    obtain ⟨rfl, hMoves, hId⟩ := reserveFunding_moves hw (not_le.mp hDelta) hFunding
    rw [reserveToken_ok (not_le.mp hDelta) hToken]
    exact Or.inr ⟨_, w₁, not_le.mp hDelta, hOpen.1.1.1, hOpen.1.1.2, hMoves, hId, rfl⟩

variable {s : BillingSession}

theorem counters_reserved {w₁ : World} {id x : Int} (hc : Counters s w) (hDelta : 0 < delta)
    (hMoves : Moves s.funding delta w w₁)
    (hId : ∀ sf, s.funding = .subscription sf → 0 < sf.subscriptionId) :
    Counters (reservedSession s delta) (w₁.addToken id x) := by
  have hSource := hc.source
  have hNonneg := hc.nonneg
  refine ⟨by simp [reservedSession, hc.settled], by simp [reservedSession, hc.fundingSettled],
    by simp [reservedSession, hc.refunded], by simp [reservedSession, hc.token],
    by simp [reservedSession]; omega, ?_⟩
  unfold SourceCounters at hSource ⊢
  cases hf : s.funding with
  | wallet userId consumed =>
    simp only [hf] at hSource
    simp [reservedSession, hf, Funding.reserved, hSource]
  | subscription f =>
    simp only [hf] at hSource
    have hExtra := hSource.extra
    have hSum := hSource.sum
    simp only [reservedSession, syncRelayInfo_funding, hf, Funding.reserved]
    refine ⟨by simp; omega, hSource.pos, by simp; omega, fun _ => hId f hf, ?_, ?_⟩
    · simp [syncRelayInfo]
    · simpa [hMoves.records] using hSource.record

variable {b : Int} {T : Tracked}

theorem track_reserve (hT : Inv f₀ b T) {o : ReserveSteps} {targetQuota : Int}
    (ha : Allowed T (.reserve env o targetQuota)) :
    track T (.reserve env o targetQuota) = T ∨ ∃ s w delta w₁, T = ⟨⟨s, w⟩, .unpaid⟩ ∧
      0 < delta ∧ Moves s.funding delta w w₁ ∧
      (∀ sf, s.funding = .subscription sf → 0 < sf.subscriptionId) ∧
      track T (.reserve env o targetQuota) = ⟨⟨reservedSession s delta,
        w₁.addToken s.relayInfo.tokenId (if s.relayInfo.isPlayground then 0 else -delta)⟩,
        .unpaid⟩ := by
  obtain ⟨⟨s, w⟩, bill⟩ := T
  have hBill : billAfter ⟨s, w⟩ bill (.reserve env o targetQuota) = bill := by
    cases bill <;> rfl
  simp only [track, hBill, State.next]
  rcases hRes : reserve env o targetQuota ⟨s, w⟩ with ⟨res, st'⟩
  rcases reserve_cases hT.bounds ha hRes with rfl |
    ⟨delta, w₁, hDelta, hSettled, hRefunded, hMoves, hId, rfl⟩
  · exact Or.inl rfl
  have hPhase := hT.phase
  cases bill with
  | settled amount => exact absurd (hSettled.symm.trans hPhase) (by decide)
  | refunded rest => exact absurd (hRefunded.symm.trans hPhase.2) (by decide)
  | unpaid => exact Or.inr ⟨s, w, delta, w₁, rfl, hDelta, hMoves, hId, rfl⟩

theorem inv_reserve (hT : Inv f₀ b T) {o : ReserveSteps} {targetQuota : Int}
    (ha : Allowed T (.reserve env o targetQuota)) :
    Inv f₀ b (track T (.reserve env o targetQuota)) := by
  rcases track_reserve hT ha with hStay | ⟨s, w, delta, w₁, rfl, hDelta, hMoves, hId, hNext⟩
  · rwa [hStay]
  rw [hNext]
  refine ⟨hMoves.bounds hT.bounds, ?_, ?_, ?_, counters_reserved hT.phase hDelta hMoves hId⟩
  · have hUsed : fundingUsed s.funding w = some (b + s.preConsumedQuota) := hT.used
    simp only [Bill.used, Bill.owed, reservedSession, syncRelayInfo_funding, syncRelayInfo_preConsumedQuota,
      fundingUsed_reserved, fundingUsed_addToken, hMoves.used, hUsed, map_some, add_assoc]
  · simpa only [reservedSession, syncRelayInfo_funding] using hT.same.reserved delta
  · intro hSub
    refine hT.base ?_
    cases hf : s.funding with
    | wallet => simp [reservedSession, hf, Funding.reserved, Funding.source] at hSub
    | subscription f => rfl

/-! ## Settlements -/

theorem adjustToken_world (o : Outcome) (info : RelayInfo) (delta : Int) (w : World) :
    ∃ x, (adjustToken o info delta w).2 = w.addToken info.tokenId x ∧
      (isOk (adjustToken o info delta w).1 = true → x = if info.isPlayground then 0 else -delta) := by
  unfold adjustToken
  cases hp : info.isPlayground with
  | true => exact ⟨0, by simp, fun _ => rfl⟩
  | false =>
    simp only [Bool.false_eq_true, if_false]
    split
    · rcases h : decreaseTokenQuota o info.tokenId delta w with e | ⟨u, w'⟩
      · exact ⟨0, by simp, nofun⟩
      · exact ⟨-delta, quotaWrite_ok h, fun _ => rfl⟩
    · rcases h : increaseTokenQuota o info.tokenId (-delta) w with e | ⟨u, w'⟩
      · exact ⟨0, by simp, nofun⟩
      · exact ⟨-delta, quotaWrite_ok h, fun _ => rfl⟩

/-- The session after a settlement that took effect. -/
structure SettledFrom (s s' : BillingSession) : Prop where
  settled : s'.settled = true
  funding : s'.funding = s.funding
  tokenId : s'.relayInfo.tokenId = s.relayInfo.tokenId
  isPlayground : s'.relayInfo.isPlayground = s.relayInfo.isPlayground

variable {actualQuota : Int}

/-- What the first settlement of a session can do: fail on the source and leave
everything as it was, or settle the difference. -/
theorem settle_cases {o : SettleSteps} {st st' : State} {res : Except Err Unit}
    (hOpen : st.session.settled = false) (hFunding : st.session.fundingSettled = false)
    (hw : st.world.subs.AllRows InBounds) (h : settle o actualQuota st = (res, st')) :
    (settleTakesEffect o actualQuota st = false ∧ isOk res = false ∧ st' = st) ∨
      (settleTakesEffect o actualQuota st = true ∧ ∃ s' w₁ x,
        st' = ⟨s', w₁.addToken st.session.relayInfo.tokenId x⟩ ∧ SettledFrom st.session s' ∧
        Settles st.session.funding (actualQuota - st.session.preConsumedQuota) st.world w₁ ∧
        (isOk res = true → x = if st.session.relayInfo.isPlayground then 0
          else -(actualQuota - st.session.preConsumedQuota))) := by
  obtain ⟨s, w⟩ := st
  simp only at hOpen hFunding hw
  unfold settle at h
  simp only [hOpen, hFunding, Bool.false_eq_true, if_false] at h
  split at h
  · rename_i hZero
    cases h
    refine Or.inr ⟨?_, { s with settled := true }, w, 0, by simp [hFunding], ⟨rfl, rfl, rfl, rfl⟩, ?_, ?_⟩
    · simp [settleTakesEffect, show actualQuota = s.preConsumedQuota by omega]
    · simp only [hZero]
      exact settles_refl hw
    · intro _
      simp [hZero]
  · rename_i hNe
    have hEffect : settleTakesEffect o actualQuota ⟨s, w⟩ =
        isOk (s.funding.settle o.funding (actualQuota - s.preConsumedQuota) w) := by
      simp [settleTakesEffect, show actualQuota ≠ s.preConsumedQuota by omega]
    rw [hEffect]
    split at h
    · rename_i e hSettle
      cases h
      simp [hSettle]
    · rename_i u w₁ hSettle
      obtain ⟨x, hx, hOk⟩ := adjustToken_world o.token s.relayInfo
        (actualQuota - s.preConsumedQuota) w₁
      rw [hx] at h
      cases h
      refine Or.inr ⟨by simp [hSettle], _, w₁, x, rfl, ⟨rfl, rfl, ?_, ?_⟩,
        settle_settles hw hSettle, hOk⟩
      · split <;> rfl
      · split <;> rfl

theorem settle_of_settled {o : SettleSteps} {st : State} (h : st.session.settled = true) :
    settle o actualQuota st = (.ok (), st) := by
  simp [settle, h]

theorem track_settle (hT : Inv f₀ b T) {o : SettleSteps} (ha : Allowed T (.settle o actualQuota)) :
    track T (.settle o actualQuota) = T ∨ ∃ s w s' w₁ x, T = ⟨⟨s, w⟩, .unpaid⟩ ∧
      track T (.settle o actualQuota) =
        ⟨⟨s', w₁.addToken s.relayInfo.tokenId x⟩, .settled actualQuota⟩ ∧
      SettledFrom s s' ∧ Settles s.funding (actualQuota - s.preConsumedQuota) w w₁ ∧
      (isOk (settle o actualQuota ⟨s, w⟩).1 = true → x = if s.relayInfo.isPlayground then 0
        else -(actualQuota - s.preConsumedQuota)) := by
  obtain ⟨⟨s, w⟩, bill⟩ := T
  have hPhase := hT.phase
  cases bill with
  | refunded rest => exact absurd (Eq.trans (Eq.symm ha) hPhase.2) (by decide)
  | settled amount =>
    have hSettled : s.settled = true := hPhase
    have hStay : (settle o actualQuota ⟨s, w⟩).2 = ⟨s, w⟩ := by rw [settle_of_settled hSettled]
    exact Or.inl (by simp only [track, State.next, billAfter, hStay])
  | unpaid =>
    have hc : Counters s w := hPhase
    rcases hRes : settle o actualQuota ⟨s, w⟩ with ⟨res, st'⟩
    rcases settle_cases hc.settled hc.fundingSettled hT.bounds hRes with
      ⟨hEffect, -, rfl⟩ | ⟨hEffect, s', w₁, x, rfl, hs', hSettles, hOk⟩
    · simp only [track, State.next, billAfter, hRes, hEffect]
      exact Or.inl rfl
    · refine Or.inr ⟨s, w, s', w₁, x, rfl, ?_, hs', hSettles, by rwa [hRes]⟩
      simp only [track, State.next, billAfter, hRes, hEffect, if_true]

theorem inv_settle (hT : Inv f₀ b T) {o : SettleSteps} (ha : Allowed T (.settle o actualQuota)) :
    Inv f₀ b (track T (.settle o actualQuota)) := by
  rcases track_settle hT ha with hStay | ⟨s, w, s', w₁, x, rfl, hNext, hs', hSettles, -⟩
  · rwa [hStay]
  rw [hNext]
  refine ⟨hSettles.bounds, ?_, ?_, ?_, hs'.settled⟩
  · have hUsed : fundingUsed s.funding w = some (b + s.preConsumedQuota) := hT.used
    simp only [hs'.funding, fundingUsed_addToken, hSettles.used, hUsed, map_some, Bill.used,
      add_assoc, add_sub_cancel]
  · simpa only [hs'.funding] using hT.same
  · simpa only [hs'.funding] using hT.base

/-! ## Refunds -/

theorem shifts_givenBack {f : SubscriptionFunding} {sub : UserSubscription} {x : Int} {db : Db}
    (hdb : db.subs = (w.subs.saveSub (adjusted sub (-x))).subs)
    (hSub : w.subs.subs.find? f.subscriptionId = some sub) (hx : 0 ≤ x)
    (hUsed : x ≤ sub.amountUsed) : Shifts (.subscription f) (-x) w { w with subs := db } := by
  have hKey : sub.id = f.subscriptionId := key_of_find? hSub
  have hClamp : usedAfter sub.amountUsed (-x) = sub.amountUsed + -x :=
    usedAfter_of_nonneg (by omega)
  have hRow : db.subs.find? f.subscriptionId = some (adjusted sub (-x)) := by
    rw [hdb]
    exact find?_save_self hKey hSub
  refine ⟨?_, rfl, ?_⟩
  · simp only [fundingUsed, hRow, hSub, map_some, adjusted_amountUsed, hClamp]
  · intro hBounds row hMem
    have hMem' : row ∈ (w.subs.saveSub (adjusted sub (-x))).subs := hdb ▸ hMem
    rcases eq_or_mem_of_mem_save hMem' with rfl | hOld
    · have := hBounds.find hSub
      unfold InBounds at this ⊢
      simp only [adjusted_amountUsed, hClamp, adjusted_amountTotal]
      omega
    · exact hBounds row hOld

/-- The source's side of a refund: the charge of the session comes back, apart
from the part that is given back separately, or nothing happens. -/
theorem refundFunding_shifts {o : RefundSteps} (hc : Counters s w)
    (hUsed : fundingUsed s.funding w = some (b + s.preConsumedQuota))
    (hBase : s.funding.source = .subscription → 0 ≤ b) (hLate : ∀ f, s.funding = .subscription f
      → Guarded (attempt f.requestId) (fun db a => ¬ LateFailure f.requestId db a) w.subs
      (retries o.attempts)) :
    Shifts s.funding (if isOk (s.funding.refund o w).1 then
      -(s.preConsumedQuota - separateExtra s) else 0) w (s.funding.refund o w).2 := by
  have hSource := hc.source
  unfold SourceCounters at hSource
  unfold separateExtra
  cases hf : s.funding with
  | wallet userId consumed =>
    simp only [hf] at hSource
    subst hSource
    simp only [Funding.refund, sub_zero]
    split
    · rename_i hZero
      have hNonneg := hc.nonneg
      simp only [isOk_ok, if_true, show s.preConsumedQuota = 0 by omega, neg_zero]
      exact (moves_refl _ w).toShifts
    · rcases hInc : increaseUserQuota o.wallet userId s.preConsumedQuota w with e | ⟨u, w'⟩
      · exact (moves_refl _ w).toShifts
      · rw [quotaWrite_ok hInc]
        simpa using (moves_addUser userId s.preConsumedQuota (-s.preConsumedQuota) w).toShifts
  | subscription f =>
    simp only [hf] at hSource hUsed hBase
    have hb : 0 ≤ b := hBase rfl
    obtain ⟨r, hr, hConsumed, hPre, hRowId⟩ := hSource.record
    have hPos := hSource.pos
    have hSum := hSource.sum
    have hExtra := hSource.extra
    obtain ⟨sub, hSub, hSubUsed⟩ := map_eq_some_iff.mp hUsed
    have hCases := refundAttempts_cases (.ok ()) hr hConsumed (hPre ▸ hPos)
      (hRowId ▸ hSub) (hLate f hf) (by simp [retries])
    simp only [Funding.refund, not_le.mpr hPos, if_false, refundWithRetry]
    rw [show s.preConsumedQuota - s.extraReserved = f.preConsumed by omega]
    rcases hCases with hTaken | ⟨hFailed, hStay⟩
    · rw [hTaken, hPre]
      exact shifts_givenBack rfl hSub hPos.le (by omega)
    · rw [hFailed, hStay]
      exact (moves_refl _ w).toShifts

theorem refundExtra_shifts {w₀ : World} {rest : Int} (hc : Counters s w₀)
    (hUsed : fundingUsed s.funding w = some rest)
    (hRest : s.funding.source = .subscription → s.extraReserved ≤ rest) :
    Shifts s.funding (if isOk (refundExtra o s w).1 then -separateExtra s else 0) w
      (refundExtra o s w).2 := by
  have hSource := hc.source
  unfold SourceCounters at hSource
  unfold separateExtra refundExtra
  cases hf : s.funding with
  | wallet userId consumed =>
    simp only [Funding.source, reduceCtorEq, false_and, and_false, if_false, isOk_ok, if_true,
      neg_zero]
    exact (moves_refl _ w).toShifts
  | subscription f =>
    simp only [hf] at hSource hRest hUsed
    have hExtra := hSource.extra
    simp only [Funding.source, true_and, hSource.info]
    split
    · rcases hPost : postConsumeUserSubscriptionDelta o f.subscriptionId (-s.extraReserved) w.subs
        with e | ⟨u, db⟩
      · exact (moves_refl _ w).toShifts
      · have hClamp : Unclamped (.subscription f) (-s.extraReserved) w := by
          intro row hRow
          simp only [fundingUsed, hRow, map_some, Option.some.injEq] at hUsed
          have := hRest rfl
          omega
        exact (moves_postConsume hClamp (by rw [hPost]; rfl)).toShifts
    · rename_i hNone
      have hZero : s.extraReserved = 0 := by
        by_contra hNe
        exact hNone ⟨by omega, hSource.reserved (by omega)⟩
      simp only [isOk_ok, if_true, hZero, neg_zero]
      exact (moves_refl _ w).toShifts

theorem refundToken_world (o : Outcome) (w : World) (hNonneg : 0 ≤ s.tokenConsumed) :
    ∃ x, (refundToken o s w).2 = w.addToken s.relayInfo.tokenId x ∧
      (isOk (refundToken o s w).1 = true →
        x = if s.relayInfo.isPlayground then 0 else s.tokenConsumed) := by
  unfold refundToken
  split
  · rename_i hGive
    rcases h : increaseTokenQuota o s.relayInfo.tokenId s.tokenConsumed w with e | ⟨u, w'⟩
    · exact ⟨0, by simp, nofun⟩
    · refine ⟨s.tokenConsumed, quotaWrite_ok h, fun _ => ?_⟩
      simp at hGive
      simp [hGive.2]
  · rename_i hSkip
    refine ⟨0, by simp, fun _ => ?_⟩
    cases hp : s.relayInfo.isPlayground with
    | true => rfl
    | false =>
      have : ¬ 0 < s.tokenConsumed := fun hPos => hSkip ⟨hPos, by simp [hp]⟩
      simp only [Bool.false_eq_true, if_false]
      omega

theorem refund_unpaid {o : RefundSteps} (hT : Inv f₀ b ⟨⟨s, w⟩, .unpaid⟩)
    (ha : Allowed ⟨⟨s, w⟩, .unpaid⟩ (.refund o)) (hNeeds : s.needsRefund = true) :
    ∃ w₁ x, refund o ⟨s, w⟩ = ⟨{ s with refunded := true }, w₁.addToken s.relayInfo.tokenId x⟩ ∧
      Shifts s.funding (refundRest o ⟨s, w⟩ - s.preConsumedQuota) w w₁ ∧
      (isOk (refundToken o.token s w₁).1 = true →
        x = if s.relayInfo.isPlayground then 0 else s.tokenConsumed) ∧
      w₁ = (refundExtra o.extra s (s.funding.refund o w).2).2 := by
  have hc : Counters s w := hT.phase
  have hUsed : fundingUsed s.funding w = some (b + s.preConsumedQuota) := hT.used
  have hFunding := refundFunding_shifts hc hUsed hT.base ha
  have hLeft := hFunding.used
  rw [hUsed, map_some] at hLeft
  have hExtra := refundExtra_shifts (o := o.extra) hc hLeft (by
    intro hSub
    have hb := hT.base hSub
    have hSource := hc.source
    unfold SourceCounters at hSource
    cases hf : s.funding with
    | wallet => simp [hf, Funding.source] at hSub
    | subscription f =>
      simp only [hf] at hSource
      have := hSource.sum
      have := hSource.pos
      simp only [separateExtra, hf]
      split <;> omega)
  obtain ⟨x, hx, hOk⟩ := refundToken_world o.token (refundExtra o.extra s (s.funding.refund o w).2).2
    (hc.token ▸ hc.nonneg)
  refine ⟨_, x, ?_, ?_, hOk, rfl⟩
  · simp only [refund, hc.settled, hc.refunded, hNeeds, Bool.or_self, Bool.not_true,
      Bool.false_eq_true, if_false, hx]
  · have hBoth := hFunding.trans hExtra
    have hSum : (if isOk (s.funding.refund o w).1 then -(s.preConsumedQuota - separateExtra s)
        else 0) + (if isOk (refundExtra o.extra s (s.funding.refund o w).2).1 then
          -separateExtra s else 0) = refundRest o ⟨s, w⟩ - s.preConsumedQuota := by
      simp only [refundRest]
      split <;> split <;> omega
    rwa [hSum] at hBoth

theorem track_refund (hT : Inv f₀ b T) {o : RefundSteps} (ha : Allowed T (.refund o)) :
    track T (.refund o) = T ∨ ∃ s w w₁ x, T = ⟨⟨s, w⟩, .unpaid⟩ ∧
      track T (.refund o) = ⟨⟨{ s with refunded := true }, w₁.addToken s.relayInfo.tokenId x⟩,
        .refunded (refundRest o ⟨s, w⟩)⟩ ∧
      Shifts s.funding (refundRest o ⟨s, w⟩ - s.preConsumedQuota) w w₁ ∧
      (isOk (refundToken o.token s w₁).1 = true →
        x = if s.relayInfo.isPlayground then 0 else s.tokenConsumed) ∧
      w₁ = (refundExtra o.extra s (s.funding.refund o w).2).2 := by
  obtain ⟨⟨s, w⟩, bill⟩ := T
  have hPhase := hT.phase
  cases bill with
  | settled amount =>
    have hSettled : s.settled = true := hPhase
    exact Or.inl (by simp only [track, State.next, billAfter, refund, hSettled, Bool.true_or,
      if_true])
  | refunded rest =>
    have hRefunded : s.refunded = true := hPhase.2
    exact Or.inl (by simp only [track, State.next, billAfter, refund, hRefunded, Bool.or_true,
      Bool.true_or, if_true])
  | unpaid =>
    cases hNeeds : s.needsRefund with
    | false =>
      simp only [track, State.next, billAfter, refund, hNeeds, Bool.not_false, Bool.or_true,
        if_true]
      exact Or.inl rfl
    | true =>
      obtain ⟨w₁, x, hNext, hShifts, hOk, hw₁⟩ := refund_unpaid hT ha hNeeds
      refine Or.inr ⟨s, w, w₁, x, rfl, ?_, hShifts, hOk, hw₁⟩
      simp only [track, State.next, billAfter, hNeeds, hNext, if_true]

theorem inv_refund (hT : Inv f₀ b T) {o : RefundSteps} (ha : Allowed T (.refund o)) :
    Inv f₀ b (track T (.refund o)) := by
  rcases track_refund hT ha with hStay | ⟨s, w, w₁, x, rfl, hNext, hShifts, -, -⟩
  · rwa [hStay]
  rw [hNext]
  have hc : Counters s w := hT.phase
  refine ⟨hShifts.bounds hT.bounds, ?_, hT.same, hT.base, hc.settled, rfl⟩
  have hUsed : fundingUsed s.funding w = some (b + s.preConsumedQuota) := hT.used
  simp only [fundingUsed_addToken, hShifts.used, hUsed, map_some, Bill.used, Bill.owed,
    add_assoc, add_sub_cancel]

theorem inv_track (T : Tracked) (op : Op) (hT : Inv f₀ b T) (ha : Allowed T op) :
    Inv f₀ b (track T op) := by
  cases op with
  | reserve env o targetQuota => exact inv_reserve hT ha
  | settle o actualQuota => exact inv_settle hT ha
  | refund o => exact inv_refund hT ha

end Qapi.Billing
